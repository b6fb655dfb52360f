import ZeroCpu.System.Reports
import ZeroCpu.System.TimerTicks

/-!
# Preemption accounting

Reference: `src/kernel/TimerPreemptiveScheduler.cpp`, `src/system/MultiProcessRunner.cpp`, `runImages`.

Every tick is one executed instruction that left the CPU running, every quantum of ticks makes a
request, and a request ends in a preemption, in the completion of a process at the end of its code, or
stays pending for the one round in which the process reaches that end. `Tallied` is the invariant;
`Tallies` is what a round adds to it.
-/

namespace ZeroCpu.Sys

open Library Kernel

variable {H : Type}

namespace MultiProcessRunner

open ProcessLifecycleManager TimerPreemptiveScheduler

/-! ## What a run counts -/

/-- The requests of the timer that are pending. -/
def pendingRequests (rt : Runtime H) : ℕ :=
  rt.board.controller.pending.countP fun request => request.source == kTimerSource

/-- The requests that the timer has made. -/
def requestsMade (rt : Runtime H) : ℕ := rt.board.timer.interruptCount.toNat

/-- The requests that the round from `s` discards because a process is complete. -/
def discardedIn (s : RunState H) : ℕ :=
  match completeAtEnd s.runtime with
  | .ok rt => pendingRequests s.runtime - pendingRequests rt
  | .error _ => 0

/-- The requests that the rounds from `s` discard. -/
def discardedBy [LongDouble] : ℕ → RunState H → ℕ
  | 0, _ => 0
  | rounds + 1, s =>
      if s.runtimeState ≠ .Running then 0
      else discardedIn s + match iterate s with
        | .ok s' => discardedBy rounds s'
        | .error _ => 0

/-- The executed instructions that neither faulted nor halted. -/
def completedInstructions (s : RunState H) : ℕ :=
  s.executionTrace.countP fun record => !record.event.after.halted && !record.event.after.hasError

/-- The scheduling decisions: switches on timer requests, and ends of processes. -/
def decisions (s : RunState H) : ℕ :=
  s.runtime.preemptive.preemption_count + s.runtime.lifecycle.termination_count

section Rounds

variable {images : List ProcessImage} {options : MultiProcessRunOptions H} {base : Setup (Board H)}
  {rt rt' : Runtime H} {s s' : RunState H} {n p : ℕ}

/-! ## Requests of the timer -/

/-- The number of pending requests is the one the board counts. -/
theorem pendingRequests_of_onBoard (h : OnBoard options n p rt.board) : pendingRequests rt = p := by
  rw [pendingRequests, h.2, controllerWith, List.countP_replicate, timerRequest]
  rfl

/-- A request is due when there is one and the process is inside its code. -/
theorem due_iff (h : OnBoard options n p rt.board) :
    Due rt ↔ 0 < p ∧ atUserCodeEnd rt.cpu = false := by
  rw [Due, h.1, h.2]
  exact and_congr_left fun _ => hasPendingFrom_controllerWith

/-- A preemption takes one request. -/
theorem onBoard_of_preempts (hinv : rt.table.Invariant) (h : OnBoard options n (p + 1) rt.board)
    {selected : ProcessId} (hpreempts : Preempts rt selected rt') :
    OnBoard options n p rt'.board
      ∧ rt'.preemptive.preemption_count = rt.preemptive.preemption_count + 1
      ∧ rt'.lifecycle = rt.lifecycle := by
  obtain ⟨d, request, controller, hd, hack, rfl⟩ := hpreempts.switch
  obtain ⟨-, -, -, hsame, -⟩ :=
    find?_of_dispatchNext (d := ⟨rt.cpu, rt.table, rt.scheduler⟩) hinv hd
  have hworld : d.cpu.core.world = rt.board := hsame.world
  rw [hworld, h.1, h.2] at hack
  have htaken := (acknowledgeFrom_controllerWith p).symm.trans hack
  obtain ⟨-, rfl⟩ := Prod.mk.inj (Except.ok.inj htaken)
  refine ⟨⟨?_, rfl⟩, rfl, rfl⟩
  show d.cpu.core.world.timer = _
  rw [hworld, h.1]

/-- Ending a process leaves the board alone. -/
theorem board_of_terminates (hinv : rt.table.Invariant) (hne : rt.table.running_pid ≠ 0)
    {result : ProcessLifecycleStepResult} (h : Terminates rt result rt') :
    rt'.board = rt.board ∧ rt'.preemptive = rt.preemptive
      ∧ rt'.lifecycle.termination_count = rt.lifecycle.termination_count + 1 := by
  have hworld : ∀ stopped cpu : CPU (Board H), (clearExit stopped cpu).core.world = cpu.core.world := by
    intro stopped cpu
    rw [clearExit]
    split_ifs <;> rfl
  cases h with
  | last => exact ⟨hworld _ _, rfl, rfl⟩
  | @switches staged next d captured terminated ready dispatched ne =>
    obtain ⟨-, -, -, -, -, -, hstaged, -, -⟩ := terminateRunning_spec hinv hne terminated
    obtain ⟨-, -, -, hsame, -⟩ :=
      find?_of_dispatchNext (d := ⟨rt.cpu, staged, rt.scheduler⟩) hstaged dispatched
    exact ⟨(hworld _ _).trans hsame.world, rfl, rfl⟩

/-! ## Rounds -/

/-- A run has executed `n` instructions that left the CPU running, and `p` requests are pending. -/
structure Tallied (options : MultiProcessRunOptions H) (n p : ℕ) (s : RunState H) : Prop where
  board : OnBoard options n p s.runtime.board
  ticks_lt : n < 2 ^ 64
  executed : completedInstructions s = n
  pending_le : p ≤ 1
  at_end : 0 < p → reachedExecutableEnd s.runtime = .ok true ∧ options.quantum.toNat ∣ n

/-- What a round from `s` adds to the tally of `s`. -/
structure Tallies (options : MultiProcessRunOptions H) (n p : ℕ) (s s' : RunState H) (n' p' : ℕ)
    (preempted ended : Bool) : Prop where
  tallied : Tallied options n' p' s'
  ticks_le : n ≤ n'
  requests : n' / options.quantum.toNat = n / options.quantum.toNat + preempted.toNat + p'
  preemption_count : s'.runtime.preemptive.preemption_count
    = s.runtime.preemptive.preemption_count + preempted.toNat
  termination_count : s'.runtime.lifecycle.termination_count
    = s.runtime.lifecycle.termination_count + ended.toNat
  discarded : discardedIn s = p
  goes_on : ended = false → s'.executionTrace.length + n = s.executionTrace.length + n'
  length_le : s'.executionTrace.length ≤ s.executionTrace.length + 1
  completes : 0 < p → ended = true ∧ s'.executionTrace = s.executionTrace

/-- The event of a step counts when the step has left the CPU running. -/
theorem completedInstructions_record (pid : ProcessId) (result : ProcessLifecycleStepResult)
    {after : Runtime H} {event : TraceEvent} {cpu : CPU (Board H)}
    (h : after.cpu.trace = s.runtime.cpu.trace ++ [event]) (hafter : event.after = cpu.core.state) :
    (record s s.runtime after pid result).executionTrace.length = s.executionTrace.length + 1
      ∧ (¬ Stopped cpu → completedInstructions (record s s.runtime after pid result)
        = completedInstructions s + 1)
      ∧ (Stopped cpu → completedInstructions (record s s.runtime after pid result)
        = completedInstructions s) := by
  rw [completedInstructions, record_executionTrace_grown h, List.countP_append, List.countP_singleton,
    hafter, List.length_append]
  refine ⟨rfl, fun hgoes => ?_, fun hstopped => ?_⟩
  · obtain ⟨hhalted, herror⟩ := not_or.mp hgoes
    rw [Bool.eq_false_iff.mpr hhalted, Bool.eq_false_iff.mpr herror]
    rfl
  · rcases hstopped with hhalted | herror
    · rw [hhalted]
      rfl
    · rw [herror, Bool.not_true, Bool.and_false]
      rfl

/-- The round that completes a process discards its request. -/
theorem tallies_of_completed [LongDouble] (hsteady : Steady images base s) (h : Tallied options n p s)
    (hne : s.runtime.table.running_pid ≠ 0) (hatEnd : reachedExecutableEnd s.runtime = .ok true)
    {result : ProcessLifecycleStepResult} {after : Runtime H}
    (hstep : LifecycleStep { discardCompletionTimerRequest s.runtime with
      cpu := haltCpu (discardCompletionTimerRequest s.runtime).cpu } result after) :
    Tallies options n p s (record s s.runtime after s.runtime.table.running_pid result) n 0 false
      true := by
  set rt : Runtime H := { discardCompletionTimerRequest s.runtime with
    cpu := haltCpu (discardCompletionTimerRequest s.runtime).cpu } with hrt
  have hboard : OnBoard options n 0 rt.board := by
    refine ⟨h.board.1, ?_⟩
    show discardRequests s.runtime.board.timer.vector s.runtime.board.controller.pending.length
      s.runtime.board.controller = _
    rw [h.board.1, h.board.2]
    exact discardRequests_controllerWith (List.length_replicate (n := p)).ge
  have hstopped : rt.cpu.Stopped := .inl rfl
  have hidle : stepped rt = rt := by
    rw [stepped, CPU.step_of_stopped hstopped]
  have hinv : rt.table.Invariant := hsteady.settled.invariant
  -- A halted CPU is only ended: no request is due any more and it executes nothing.
  cases hstep with
  | early preempts => exact absurd preempts.due (not_due_completed _)
  | late quiet goesOn => exact absurd (hidle.symm ▸ hstopped) goesOn
  | plain quiet goesOn => exact absurd (hidle.symm ▸ hstopped) goesOn
  | terminates quiet stopped terminates =>
    rw [hidle] at terminates
    obtain ⟨hafter, hpreemptive, hended⟩ := board_of_terminates hinv hne terminates
    have htrace : after.cpu.trace = s.runtime.cpu.trace :=
      (sameRecords_of_terminates hinv hne terminates).trace
    have hrecord : (record s s.runtime after s.runtime.table.running_pid result).executionTrace
        = s.executionTrace := record_executionTrace_same htrace
    -- Every pending timer request is dropped with the process.
    have hdiscarded : discardedIn s = p := by
      rw [discardedIn, (Prepared.completed hatEnd).completeAtEnd]
      show pendingRequests s.runtime - pendingRequests rt = p
      rw [pendingRequests_of_onBoard h.board, pendingRequests_of_onBoard hboard, Nat.sub_zero]
    exact {
      tallied := {
        board := by
          show OnBoard options n 0 after.board
          rw [hafter]
          exact hboard
        ticks_lt := h.ticks_lt
        executed := by rw [completedInstructions, hrecord, ← h.executed, completedInstructions]
        pending_le := Nat.zero_le 1
        at_end := nofun }
      ticks_le := le_rfl
      requests := rfl
      preemption_count := congrArg TimerPreemptiveScheduler.preemption_count hpreemptive
      termination_count := hended
      discarded := hdiscarded
      goes_on := nofun
      length_le := by
        rw [hrecord]
        exact Nat.le_succ _
      completes := fun _ => ⟨rfl, hrecord⟩ }

/-- A tick makes one request at most. -/
theorem requestsAt_le : requestsAt options n ≤ 1 := by
  rw [requestsAt]
  split_ifs
  · exact le_rfl
  · exact Nat.zero_le 1

/-- A tick makes a request when it ends a quantum. -/
theorem requestsAt_pos : 0 < requestsAt options n ↔ options.quantum.toNat ∣ n := by
  rw [requestsAt]
  split_ifs with hdvd
  · exact iff_of_true Nat.one_pos hdvd
  · exact iff_of_false (lt_irrefl 0) hdvd

/-- The quanta that have ended after one more tick. -/
theorem succ_div_quantum : (n + 1) / options.quantum.toNat
    = n / options.quantum.toNat + requestsAt options (n + 1) := by
  rw [Nat.succ_div, requestsAt]

/-- The round from `s` executes an instruction, whose event is `event`, with no request pending. -/
structure Executes [LongDouble] (options : MultiProcessRunOptions H) (n : ℕ) (s : RunState H)
    (event : TraceEvent) : Prop where
  tallied : Tallied options n 0 s
  invariant : (stepped s.runtime).table.Invariant
  discarded : discardedIn s = 0
  trace : (stepped s.runtime).cpu.trace = s.runtime.cpu.trace ++ [event]
  after : event.after = s.runtime.cpu.step.core.state
  ticks : ¬ s.runtime.cpu.step.Stopped → n + 1 < 2 ^ 64
    ∧ OnBoard options (n + 1) (requestsAt options (n + 1)) (stepped s.runtime).board
  stops : s.runtime.cpu.step.Stopped → OnBoard options n 0 (stepped s.runtime).board
    ∨ s.runtime.cpu.step.core.usingKernelInterruptStack = true

/-- A process inside its code executes an instruction. -/
theorem executes_of_running [LongDouble] (hbase : Connected options base)
    (hadmissible : Admissible options.software_interrupt_handler) (hquantum : options.quantum ≠ 0)
    (hsteady : Steady images base s) (htraced : Traced images s) (h : Tallied options n 0 s)
    (hrunning : s.runtimeState = .Running) (hne : s.runtime.table.running_pid ≠ 0)
    (hinside : reachedExecutableEnd s.runtime = .ok false) : ∃ event, Executes options n s event := by
  obtain ⟨image, -, hresident⟩ := hsteady.settled.resident hne
  have hrun := hsteady.going hne
  obtain ⟨hgoes, hstops, -⟩ :=
    step_onBoard hbase hadmissible hquantum h.ticks_lt hresident hrun h.board
  rw [Nat.zero_add] at hgoes
  obtain ⟨hstopped, -⟩ | ⟨-, event, htrace, -, hafter, -⟩ := CPU.step_trace htraced.recorded
    fun _ => (htraced.goesOn hrunning).no_message
  · exact absurd hstopped hrun
  have hdiscarded : discardedIn s = 0 := by
    rw [discardedIn, (Prepared.running hinside).completeAtEnd]
    exact Nat.sub_self _
  exact ⟨event, h, hsteady.settled.invariant, hdiscarded, htrace, hafter, hgoes, hstops⟩

/-- The tick ends a quantum, and its request is taken at once. -/
theorem Executes.late [LongDouble] {event : TraceEvent} (h : Executes options n s event)
    (goesOn : ¬ Stopped (stepped s.runtime).cpu) {selected : ProcessId} {after : Runtime H}
    (preempts : Preempts (stepped s.runtime) selected after) (pid : ProcessId)
    (result : ProcessLifecycleStepResult) :
    Tallies options n 0 s (record s s.runtime after pid result) (n + 1) 0 true false := by
  obtain ⟨hn, hboard⟩ := h.ticks goesOn
  have hone : requestsAt options (n + 1) = 1 :=
    requestsAt_le.antisymm ((due_iff hboard).mp preempts.due).1
  have hrequested := @succ_div_quantum _ options n
  rw [hone] at hboard hrequested
  obtain ⟨hafterBoard, hcount, hlifecycle⟩ := onBoard_of_preempts h.invariant hboard preempts
  obtain ⟨hlength, hcounts, -⟩ := completedInstructions_record pid result
    ((sameRecords_of_preempts h.invariant preempts).trace.trans h.trace) h.after
  exact {
    tallied := {
      board := hafterBoard
      ticks_lt := hn
      executed := (hcounts goesOn).trans (congrArg (· + 1) h.tallied.executed)
      pending_le := Nat.zero_le 1
      at_end := fun hp => absurd hp (Nat.lt_irrefl 0) }
    ticks_le := n.le_succ
    requests := hrequested
    preemption_count := hcount
    termination_count := congrArg ProcessLifecycleManager.termination_count hlifecycle
    discarded := h.discarded
    goes_on := fun _ => by
      rw [hlength]
      omega
    length_le := hlength.le
    completes := fun hp => absurd hp (Nat.lt_irrefl 0) }

/-- The tick makes no request, or the process has reached the end of its code and does not take it. -/
theorem Executes.plain [LongDouble] {event : TraceEvent} (h : Executes options n s event)
    (goesOn : ¬ Stopped (stepped s.runtime).cpu) (quiet : ¬ Due (stepped s.runtime))
    (hne : s.runtime.table.running_pid ≠ 0) (pid : ProcessId) (result : ProcessLifecycleStepResult)
    (hsteady : Steady images base (record s s.runtime (stepped s.runtime) pid result)) :
    Tallies options n 0 s (record s s.runtime (stepped s.runtime) pid result) (n + 1)
      (requestsAt options (n + 1)) false false := by
  obtain ⟨hn, hboard⟩ := h.ticks goesOn
  obtain ⟨hlength, hcounts, -⟩ := completedInstructions_record pid result h.trace h.after
  have hatEnd : 0 < requestsAt options (n + 1) → reachedExecutableEnd (stepped s.runtime) = .ok true := by
    intro hpositive
    -- The request was not taken, so that the process is at the end of its code.
    have hatEnd : atUserCodeEnd s.runtime.cpu.step = true := by
      by_contra hin
      exact quiet ((due_iff hboard).mpr ⟨hpositive, Bool.eq_false_iff.mpr hin⟩)
    simp only [atUserCodeEnd, Bool.and_eq_true] at hatEnd
    exact (hsteady.settled.reachedExecutableEnd hne (hsteady.going hne)).trans
      (congrArg Except.ok hatEnd.2)
  exact {
    tallied := {
      board := hboard
      ticks_lt := hn
      executed := (hcounts goesOn).trans (congrArg (· + 1) h.tallied.executed)
      pending_le := requestsAt_le
      at_end := fun hpositive => ⟨hatEnd hpositive, requestsAt_pos.mp hpositive⟩ }
    ticks_le := n.le_succ
    requests := succ_div_quantum
    preemption_count := rfl
    termination_count := rfl
    discarded := h.discarded
    goes_on := fun _ => by
      rw [hlength]
      omega
    length_le := hlength.le
    completes := fun hp => absurd hp (Nat.lt_irrefl 0) }

/-- The instruction ends the process, without a tick. -/
theorem Executes.terminates [LongDouble] {event : TraceEvent} (h : Executes options n s event)
    (stopped : Stopped (stepped s.runtime).cpu) (hne : s.runtime.table.running_pid ≠ 0)
    {result : ProcessLifecycleStepResult} {after : Runtime H}
    (terminates : Terminates (stepped s.runtime) result after) (pid : ProcessId) :
    Tallies options n 0 s (record s s.runtime after pid result) n 0 false true := by
  have hboard : OnBoard options n 0 (stepped s.runtime).board := by
    refine (h.stops stopped).resolve_right fun hstranded => ?_
    -- A process is captured before it ends, and a stranded call cannot be.
    have hcaptured : captureProcessContextSnapshot s.runtime.table.running_pid s.runtime.cpu.step
        = .ok (contextOf s.runtime.table.running_pid s.runtime.cpu.step) := by
      cases terminates with
      | last captured => exact captured
      | switches captured => exact captured
    rw [captureProcessContextSnapshot, requireContextSwitchableCPU, hstranded] at hcaptured
    cases hcaptured
  obtain ⟨hafterBoard, hpreemptive, hended⟩ := board_of_terminates h.invariant hne terminates
  obtain ⟨hlength, -, hcounts⟩ := completedInstructions_record pid result
    ((sameRecords_of_terminates h.invariant hne terminates).trace.trans h.trace) h.after
  exact {
    tallied := {
      board := by
        show OnBoard options n 0 after.board
        rw [hafterBoard]
        exact hboard
      ticks_lt := h.tallied.ticks_lt
      executed := (hcounts stopped).trans h.tallied.executed
      pending_le := Nat.zero_le 1
      at_end := fun hp => absurd hp (Nat.lt_irrefl 0) }
    ticks_le := le_rfl
    requests := rfl
    preemption_count := congrArg TimerPreemptiveScheduler.preemption_count hpreemptive
    termination_count := hended
    discarded := h.discarded
    goes_on := fun hended => Bool.noConfusion hended
    length_le := hlength.le
    completes := fun hp => absurd hp (Nat.lt_irrefl 0) }

/-- A round of a process inside its code: each tick that ends a quantum makes a request, which is taken
at once unless the process has reached the end of its code. -/
theorem tallies_of_running [LongDouble] (hbase : Connected options base)
    (hadmissible : Admissible options.software_interrupt_handler) (hquantum : options.quantum ≠ 0)
    (hsteady : Steady images base s) (hsteady' : Steady images base s') (htraced : Traced images s)
    (h : Tallied options n 0 s) (hrunning : s.runtimeState = .Running)
    (hne : s.runtime.table.running_pid ≠ 0)
    (hinside : reachedExecutableEnd s.runtime = .ok false)
    {result : ProcessLifecycleStepResult} {after : Runtime H}
    (hstep : LifecycleStep s.runtime result after)
    (hs' : s' = record s s.runtime after s.runtime.table.running_pid result) :
    ∃ n' p' preempted ended, Tallies options n 0 s s' n' p' preempted ended := by
  obtain ⟨event, hexecutes⟩ :=
    executes_of_running hbase hadmissible hquantum hsteady htraced h hrunning hne hinside
  subst hs'
  cases hstep with
  | early preempts => exact absurd ((due_iff h.board).mp preempts.due).1 (lt_irrefl 0)
  | late quiet goesOn preempts => exact ⟨_, _, _, _, hexecutes.late goesOn preempts _ _⟩
  | plain quiet goesOn quiet' => exact ⟨_, _, _, _, hexecutes.plain goesOn quiet' hne _ _ hsteady'⟩
  | terminates quiet stopped terminates =>
    exact ⟨_, _, _, _, hexecutes.terminates stopped hne terminates _⟩

/-- What every state of a run has in common, and its tally. -/
structure Accounted (images : List ProcessImage) (options : MultiProcessRunOptions H)
    (base : Setup (Board H)) (n p : ℕ) (s : RunState H) : Prop where
  steady : Steady images base s
  traced : Traced images s
  tallied : Tallied options n p s

/-- Every round is tallied. -/
theorem Accounted.iterate [LongDouble] (hbase : Connected options base)
    (hadmissible : Admissible options.software_interrupt_handler) (hquantum : options.quantum ≠ 0)
    (h : Accounted images options base n p s) (hrunning : s.runtimeState = .Running)
    (hiterate : MultiProcessRunner.iterate s = .ok s') : ∃ n' p' preempted ended,
      Accounted images options base n' p' s' ∧ Tallies options n p s s' n' p' preempted ended := by
  have hsteady := h.steady.iterate hbase hadmissible hrunning hiterate
  have htraced := h.traced.iterate hrunning hiterate
  obtain ⟨hne, rt, result, after, hprepared, hstep, hs'⟩ :=
    iterate_eq_ok h.steady.settled.invariant (h.steady.state.trans hrunning) hiterate
  cases hprepared with
  | completed atEnd =>
    have htallies := tallies_of_completed h.steady h.tallied hne atEnd hstep
    rw [← hs'] at htallies
    exact ⟨n, 0, false, true, ⟨hsteady, htraced, htallies.tallied⟩, htallies⟩
  | running inside =>
    -- A request that is pending would have the process completed.
    obtain rfl : p = 0 := by
      by_contra hp
      have hatEnd := (h.tallied.at_end (Nat.pos_of_ne_zero hp)).1
      exact absurd (Except.ok.inj (hatEnd.symm.trans inside)) nofun
    obtain ⟨n', p', preempted, ended, htallies⟩ := tallies_of_running hbase hadmissible hquantum
      h.steady hsteady h.traced h.tallied hrunning hne inside hstep hs'
    exact ⟨n', p', preempted, ended, ⟨hsteady, htraced, htallies.tallied⟩, htallies⟩

end Rounds

/-! ## Runs -/

section Runs

variable {host : H} {images : List ProcessImage} {options : MultiProcessRunOptions H}
  {base : Setup (Board H)} {first s s' s'' : RunState H} {n p rounds : ℕ}

/-- A booted runtime has nothing to account for. -/
theorem Booted.accounted (hadmissible : Admissible options.software_interrupt_handler)
    (h : Booted host images options s) :
    options.quantum ≠ 0 ∧ s.runtime.preemptive.preemption_count = 0
      ∧ ∃ base, Connected options base ∧ Accounted images options base 0 0 s := by
  obtain ⟨base, hbase, hsteady⟩ := h.steady
  have htraced := traced_of_booted hadmissible.recorded h
  obtain ⟨table, timer, selected, d, hcreated, htimer, hd, rfl⟩ := h.started
  obtain ⟨rfl, hquantum⟩ := make_eq_timerAfter htimer
  obtain ⟨-, -, -, hsame, -⟩ := find?_of_dispatchNext hcreated.invariant hd
  refine ⟨hquantum, rfl, base, hbase, hsteady, htraced, ?_⟩
  exact {
    board := by
      show OnBoard options 0 0 d.cpu.core.world
      rw [hsame.world]
      exact ⟨rfl, rfl⟩
    ticks_lt := by decide
    executed := rfl
    pending_le := Nat.zero_le 1
    at_end := nofun }

/-- What the rounds from `s` to `s'` have added to the tally of `s`. -/
structure Window (options : MultiProcessRunOptions H) (n p : ℕ) (s s' : RunState H) (n' p' : ℕ) :
    Prop where
  ticks_le : n ≤ n'
  decisions_le : decisions s ≤ decisions s'
  quiet : decisions s' = decisions s →
    s'.executionTrace.length + n = s.executionTrace.length + n'
      ∧ n' / options.quantum.toNat + p = n / options.quantum.toNat + p'

theorem Window.refl (options : MultiProcessRunOptions H) (n p : ℕ) (s : RunState H) :
    Window options n p s s n p := ⟨le_rfl, le_rfl, fun _ => ⟨rfl, rfl⟩⟩

/-- A round before a window extends it. -/
theorem Tallies.window {n' p' m q : ℕ} {preempted ended : Bool}
    (h : Tallies options n p s s' n' p' preempted ended) (hrest : Window options n' p' s' s'' m q) :
    Window options n p s s'' m q := by
  have hdecisions : decisions s' = decisions s + preempted.toNat + ended.toNat := by
    rw [decisions, h.preemption_count, h.termination_count, decisions]
    omega
  have hle := hrest.decisions_le
  refine ⟨h.ticks_le.trans hrest.ticks_le, by omega, fun hsame => ?_⟩
  have hnone : preempted.toNat = 0 ∧ ended.toNat = 0 := by omega
  obtain ⟨hlength, hrequests⟩ := hrest.quiet (by omega)
  have hended : ended = false := Bool.toNat_eq_zero.mp hnone.2
  have hgoes := h.goes_on hended
  have hfirst := h.requests
  -- A request that is pending ends a process in the next round.
  have hp : p = 0 := by
    by_contra hp
    have hends := (h.completes (Nat.pos_of_ne_zero hp)).1
    rw [hended] at hends
    cases hends
  omega

/-- The tally of a run. -/
theorem accounted_of_runLoop [LongDouble] (hbase : Connected options base)
    (hadmissible : Admissible options.software_interrupt_handler) (hquantum : options.quantum ≠ 0)
    (h : Accounted images options base n p s) (hrun : runLoop rounds s = .ok s') :
    ∃ n' p', Accounted images options base n' p' s' ∧ Window options n p s s' n' p'
      ∧ s'.runtime.preemptive.preemption_count + discardedBy rounds s + p'
          + n / options.quantum.toNat
        = s.runtime.preemptive.preemption_count + p + n' / options.quantum.toNat := by
  induction rounds generalizing s n p with
  | zero =>
    obtain rfl := Except.ok.inj hrun
    exact ⟨n, p, h, .refl options n p s, rfl⟩
  | succ rounds ih =>
    rw [runLoop] at hrun
    split_ifs at hrun with hstopped
    · obtain rfl := Except.ok.inj hrun
      refine ⟨n, p, h, .refl options n p s, ?_⟩
      rw [discardedBy, if_pos hstopped]
      rfl
    · obtain ⟨next, hnext, hrest⟩ := bind_eq_ok.mp hrun
      obtain ⟨m, q, preempted, ended, hnextAccounted, htallies⟩ :=
        h.iterate hbase hadmissible hquantum (not_not.mp hstopped) hnext
      obtain ⟨n', p', haccounted, hwindow, hbalance⟩ := ih hnextAccounted hrest
      refine ⟨n', p', haccounted, htallies.window hwindow, ?_⟩
      rw [discardedBy, if_neg hstopped, hnext, htallies.discarded]
      dsimp only
      rw [htallies.preemption_count, htallies.requests] at hbalance
      omega

/-- Without a decision before it, a round is the last of at most a quantum of instructions. -/
theorem Window.length_le {n' p' m q : ℕ} {preempted ended : Bool}
    (hquantum : options.quantum ≠ 0) (hs' : Tallied options n' p' s') (h : Window options n p s s' n' p')
    (hsame : decisions s' = decisions s) (hlast : Tallies options n' p' s' s'' m q preempted ended) :
    s''.executionTrace.length ≤ s.executionTrace.length + options.quantum.toNat := by
  obtain ⟨hlength, hrequests⟩ := h.quiet hsame
  have hle := h.ticks_le
  have hpositive : 0 < options.quantum.toNat :=
    Nat.pos_of_ne_zero fun hzero => hquantum (BitVec.eq_of_toNat_eq hzero)
  have hlow : n / options.quantum.toNat * options.quantum.toNat ≤ n := Nat.div_mul_le_self _ _
  rcases Nat.eq_zero_or_pos p' with rfl | hp'
  · -- Nothing is pending, so that the quantum is not over after `n'` instructions.
    have hsameQuantum : n' / options.quantum.toNat = n / options.quantum.toNat := by
      have hmono : n / options.quantum.toNat ≤ n' / options.quantum.toNat := Nat.div_le_div_right hle
      omega
    have hhigh : n' < n' / options.quantum.toNat * options.quantum.toNat + options.quantum.toNat :=
      Nat.lt_div_mul_add hpositive
    rw [hsameQuantum] at hhigh
    have hone := hlast.length_le
    omega
  · -- The quantum is just over, and the round completes the process without an instruction.
    obtain ⟨-, hnone⟩ := hlast.completes hp'
    obtain ⟨-, hover⟩ := hs'.at_end hp'
    have hpending := hs'.pending_le
    have hquanta : n' / options.quantum.toNat ≤ n / options.quantum.toNat + 1 := by omega
    have hnext : n' ≤ n + options.quantum.toNat := calc
      n' = n' / options.quantum.toNat * options.quantum.toNat := (Nat.div_mul_cancel hover).symm
      _ ≤ (n / options.quantum.toNat + 1) * options.quantum.toNat := Nat.mul_le_mul_right _ hquanta
      _ = n / options.quantum.toNat * options.quantum.toNat + options.quantum.toNat :=
        Nat.succ_mul _ _
      _ ≤ n + options.quantum.toNat := Nat.add_le_add_right hlow _
    rw [hnone]
    omega

end Runs

end MultiProcessRunner

/-! ## The theorem -/

open MultiProcessRunner in
/-- The accounts of preemption, at every iteration of every run. At most one request is pending, and
only for a process that has reached the end of its code. Preemptions, requests discarded at
completion and pending requests make up one for each quantum of instructions; a round uses up one
request for its preemption. Between two scheduling decisions no process executes more instructions
than the quantum. -/
theorem preemption_accounting [LongDouble] {host : H} {images : List ProcessImage}
    {options : MultiProcessRunOptions H}
    (hadmissible : Admissible options.software_interrupt_handler) {first s : RunState H}
    (hboot : boot host images options = .ok first) {rounds : ℕ}
    (hrun : runLoop rounds first = .ok s) :
    pendingRequests s.runtime ≤ 1
      ∧ (pendingRequests s.runtime ≠ 0 → reachedExecutableEnd s.runtime = .ok true)
      ∧ s.runtime.preemptive.preemption_count + discardedBy rounds first + pendingRequests s.runtime
        = completedInstructions s / options.quantum.toNat
      ∧ (∀ s', s.runtimeState = .Running → iterate s = .ok s' → ∃ preempted : Bool,
        s'.runtime.preemptive.preemption_count
            = s.runtime.preemptive.preemption_count + preempted.toNat
          ∧ requestsMade s'.runtime + pendingRequests s.runtime
            = requestsMade s.runtime + discardedIn s + preempted.toNat + pendingRequests s'.runtime)
      ∧ ∀ more s' s'', runLoop more s = .ok s' → s'.runtimeState = .Running →
        iterate s' = .ok s'' → decisions s' = decisions s →
        s''.executionTrace.length ≤ s.executionTrace.length + options.quantum.toNat := by
  obtain ⟨hquantum, hnone, base, hbase, hfirst⟩ := (boot_eq_ok hboot).accounted hadmissible
  obtain ⟨n, p, haccounted, -, hbalance⟩ :=
    accounted_of_runLoop hbase hadmissible hquantum hfirst hrun
  have htallied := haccounted.tallied
  -- The timer's own counter does not wrap, as a run is shorter than 2^64 steps.
  have hmade : ∀ {m q : ℕ} {s : RunState H}, Tallied options m q s →
      requestsMade s.runtime = m / options.quantum.toNat := by
    intro m q s h
    rw [requestsMade, h.board.1, timerAfter, BitVec.toNat_ofNat]
    exact Nat.mod_eq_of_lt ((Nat.div_le_self _ _).trans_lt h.ticks_lt)
  have hpending := pendingRequests_of_onBoard htallied.board
  rw [hpending]
  -- All parts are read off the tallies: of the state, of one more step, and of a window without a
  -- decision.
  refine ⟨htallied.pending_le, fun hne => (htallied.at_end (Nat.pos_of_ne_zero hne)).1, ?_,
    fun s' hrunning hiterate => ?_, fun more s' s'' hmore hrunning hiterate hsame => ?_⟩
  · rw [htallied.executed]
    rw [hnone, Nat.zero_div] at hbalance
    omega
  · obtain ⟨n', p', preempted, ended, hnext, htallies⟩ :=
      haccounted.iterate hbase hadmissible hquantum hrunning hiterate
    refine ⟨preempted, htallies.preemption_count, ?_⟩
    rw [hmade hnext.tallied, hmade htallied, htallies.requests, htallies.discarded,
      pendingRequests_of_onBoard hnext.tallied.board]
    omega
  · obtain ⟨n', p', haccounted', hwindow, -⟩ :=
      accounted_of_runLoop hbase hadmissible hquantum haccounted hmore
    obtain ⟨m, q, preempted, ended, -, hlast⟩ :=
      haccounted'.iterate hbase hadmissible hquantum hrunning hiterate
    exact hwindow.length_le hquantum haccounted'.tallied hsame hlast

/-- Two `NOP`s, as an image. -/
def nopsImage : ProcessImage :=
  Kernel.imageOf {
    header := { code_size := 48 }
    code := (InstructionEncoder.encodeProgram
      [⟨.NOP, .none, .none⟩, ⟨.NOP, .none, .none⟩] []).toOption.getD [] }
    (Str.ofString "nops")

open MultiProcessRunner in
/-- With a quantum of one, the first of two processes is at the end of its code after two switches,
and the third request stays pending. -/
theorem preemption_accounting_nops :
    letI : LongDouble := LongDouble.x87
    ∃ first s, boot () [nopsImage, nopsImage] { plainOptions none with quantum := 1 } = .ok first
      ∧ runLoop 3 first = .ok s ∧ pendingRequests s.runtime = 1
      ∧ reachedExecutableEnd s.runtime = .ok true
      ∧ s.runtime.preemptive.preemption_count + discardedBy 3 first + 1
        = completedInstructions s / 1 := by
  let _ : LongDouble := LongDouble.x87
  have hruns : ((boot () [nopsImage, nopsImage] { plainOptions none with quantum := 1 }).bind
      fun first => (runLoop 3 first).map fun s => pendingRequests s.runtime).toOption = some 1 := by
    decide +kernel
  cases hboot : boot () [nopsImage, nopsImage] { plainOptions none with quantum := 1 } with
  | error e =>
    rw [hboot] at hruns
    cases hruns
  | ok first =>
    rw [hboot] at hruns
    change ((runLoop 3 first).map fun s => pendingRequests s.runtime).toOption = some 1 at hruns
    cases hrun : runLoop 3 first with
    | error e =>
      rw [hrun] at hruns
      cases hruns
    | ok s =>
      rw [hrun] at hruns
      have hpending : pendingRequests s.runtime = 1 := Option.some.inj hruns
      obtain ⟨-, hatEnd, hbalance, -⟩ := preemption_accounting .absent hboot hrun
      rw [hpending] at hatEnd hbalance
      exact ⟨first, s, rfl, hrun, hpending, hatEnd Nat.one_ne_zero, hbalance⟩

open CPU in
/-- A handler that rewrites the saved frame: its caller goes on in Kernel mode, on the Kernel stack. -/
def promotingHandler : SoftwareInterruptHandler (Board Unit) where
  handles _ := true
  handle _ _ := do
    let state := (← Exec.get).1
    let frameBase := state.sp - kInterruptFrameSize
    let memory ← Exec.lift
      (state.memory.write (frameBase + kStackSlotSize * 2) (privilegeLevelToRaw .kernel))
    let memory ← Exec.lift (memory.write (frameBase + kStackSlotSize * 3) (Word.ofSize frameBase))
    Exec.modify fun p => ({ p.1 with memory := memory }, p.2)
    pure {}

/-- A process that calls the handler and then masks the interrupts, which only Kernel code may. -/
def maskingImage : ProcessImage :=
  Kernel.imageOf {
    header := { code_size := 120 }
    code := (InstructionEncoder.encodeProgram
      [⟨.INT, .immediate 5, .none⟩, ⟨.DI, .none, .none⟩, ⟨.NOP, .none, .none⟩, ⟨.NOP, .none, .none⟩,
        ⟨.NOP, .none, .none⟩] []).toOption.getD [] }
    (Str.ofString "masking")

open MultiProcessRunner in
/-- Requests pile up under a handler that lets a process mask the interrupts: with a quantum of two, two
of them are pending after four rounds, and the process is not at the end of its code. -/
theorem masked_requests_pile_up :
    letI : LongDouble := LongDouble.x87
    ∃ first s, boot () [maskingImage] { plainOptions (some promotingHandler) with quantum := 2 }
        = .ok first
      ∧ runLoop 4 first = .ok s ∧ s.runtimeState = .Running
      ∧ ¬ pendingRequests s.runtime ≤ 1
      ∧ ¬ (pendingRequests s.runtime ≠ 0 → reachedExecutableEnd s.runtime = .ok true) := by
  let _ : LongDouble := LongDouble.x87
  have hruns : ((boot () [maskingImage] { plainOptions (some promotingHandler) with quantum := 2 }).bind
      fun first => (runLoop 4 first).map fun s => (s.runtimeState, pendingRequests s.runtime,
        (reachedExecutableEnd s.runtime).toOption)).toOption = some (.Running, 2, some false) := by
    decide +kernel
  cases hboot : boot () [maskingImage] { plainOptions (some promotingHandler) with quantum := 2 } with
  | error e =>
    rw [hboot] at hruns
    cases hruns
  | ok first =>
    rw [hboot] at hruns
    change ((runLoop 4 first).map fun s => (s.runtimeState, pendingRequests s.runtime,
      (reachedExecutableEnd s.runtime).toOption)).toOption = some (.Running, 2, some false) at hruns
    cases hrun : runLoop 4 first with
    | error e =>
      rw [hrun] at hruns
      cases hruns
    | ok s =>
      rw [hrun] at hruns
      obtain ⟨hstate, hrest⟩ := Prod.ext_iff.mp (Option.some.inj hruns)
      obtain ⟨hpending, hatEnd⟩ := Prod.ext_iff.mp hrest
      dsimp only at hstate hpending hatEnd
      refine ⟨first, s, rfl, hrun, hstate, ?_, fun hend => ?_⟩
      · rw [hpending]
        decide
      · rw [hend (by rw [hpending]; decide)] at hatEnd
        cases hatEnd

end ZeroCpu.Sys
