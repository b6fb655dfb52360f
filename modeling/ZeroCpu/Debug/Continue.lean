import ZeroCpu.Debug.SessionRuns

/-!
# Continuing to the first stop

Reference: `src/debug/DebugSession.cpp`.

`continueExecution` stops in the first state of the CPU's run in which there is a reason to. Its loop
looks for the reasons in two places: a fault, a halt, a watchpoint and the end of the program behind
each step, breakpoints and the step limit ahead of the next one.
-/

namespace ZeroCpu.Debug

open Library Binary Kernel Exec

namespace DebugSession

variable {image : ProcessImage} {session : DebugSession}

/-! ## Stops -/

/-- The stop is in this state of the session, for this reason. -/
structure Reports (session : DebugSession) (reason : DebugStopReason) (executedSteps : ℕ)
    (stop : DebugStop) : Prop where
  reason : stop.reason = reason
  pc : stop.pc = session.cpu.core.state.pc
  executed_steps : stop.executed_steps = executedSteps
  total_steps : stop.total_steps = session.total_steps

/-- A check that stops for `reason`, or that leaves the session alone without one. -/
def Finds (check : Method (Option DebugStop)) (session : DebugSession) (executedSteps : ℕ) :
    Option DebugStopReason → Prop
  | some reason => ∃ stop, check session = (.ok (some stop), { session with last_stop := stop })
      ∧ session.Reports reason executedSteps stop
  | none => check session = (.ok none, session)

/-- Where the CPU cannot go on. -/
def stoppedReason (session : DebugSession) : Option DebugStopReason :=
  if session.cpu.core.state.hasError then some .Fault
  else if session.cpu.core.state.halted then some .Halted
  else if session.atProgramEnd then some .ProgramEnd
  else none

/-- The reason to stop behind a step. -/
def reasonAfterStep (session : DebugSession) : Option DebugStopReason :=
  if session.cpu.core.state.hasError then some .Fault
  else if session.cpu.core.state.halted then some .Halted
  else if session.findWatchpointHit.isSome then some .Watchpoint
  else if session.atProgramEnd then some .ProgramEnd
  else none

/-- A conditional breakpoint of the session holds on the CPU at its PC. -/
def AtConditionalBreakpoint (session : DebugSession) (cpu : CPU Unit) : Prop :=
  ∃ breakpoint ∈ session.conditional_breakpoints, breakpoint.address = cpu.core.state.pc
    ∧ breakpoint.condition.Holds cpu

instance (session : DebugSession) (cpu : CPU Unit) :
    Decidable (session.AtConditionalBreakpoint cpu) :=
  inferInstanceAs (Decidable (∃ breakpoint ∈ session.conditional_breakpoints,
    breakpoint.address = cpu.core.state.pc ∧ breakpoint.condition.evaluate cpu = .ok true))

/-- The breakpoint at PC, if any. -/
def breakpointReason (session : DebugSession) : Option DebugStopReason :=
  if session.cpu.core.state.pc ∈ session.breakpoints then some .Breakpoint
  else if session.AtConditionalBreakpoint session.cpu then some .ConditionalBreakpoint
  else none

/-- Making a stop reports it and remembers it. -/
theorem makeStop_eq (session : DebugSession) (reason : DebugStopReason) (executedSteps : ℕ)
    (message : Str) :
    ∃ stop, makeStop reason executedSteps message session
        = (.ok stop, { session with last_stop := stop })
      ∧ session.Reports reason executedSteps stop := ⟨_, rfl, rfl, rfl, rfl, rfl⟩

/-! ## Checks -/

/-- A stopped CPU is reported with its reason. -/
theorem classifyStoppedState_eq (session : DebugSession) (executedSteps : ℕ) :
    match session.stoppedReason with
    | some reason => ∃ stop, classifyStoppedState executedSteps session
        = (.ok stop, { session with last_stop := stop }) ∧ session.Reports reason executedSteps stop
    | none => classifyStoppedState executedSteps session
        = (.ok (session.readyStop executedSteps), session) := by
  simp only [classifyStoppedState, stoppedReason, bind_apply, get_apply]
  by_cases herror : session.cpu.core.state.hasError
  · simp only [herror, if_true]
    exact makeStop_eq session _ _ _
  · by_cases hhalted : session.cpu.core.state.halted
    · simp only [herror, hhalted, if_true]
      exact makeStop_eq session _ _ _
    · by_cases hend : session.atProgramEnd
      · simp only [herror, hhalted, hend, if_true]
        exact makeStop_eq session _ _ _
      · simp only [herror, hhalted, hend]
        rfl

/-- A conditional breakpoint is reported. -/
theorem makeConditionalBreakpointStop_eq (session : DebugSession) (hit : ConditionalBreakpointHit)
    (executedSteps : ℕ) :
    ∃ stop, makeConditionalBreakpointStop hit executedSteps session
        = (.ok stop, { session with last_stop := stop })
      ∧ session.Reports .ConditionalBreakpoint executedSteps stop :=
  ⟨_, rfl, rfl, rfl, rfl, rfl⟩

/-- A watchpoint is reported. -/
theorem makeWatchpointStop_eq (session : DebugSession) (hit : WatchpointHit) (executedSteps : ℕ) :
    ∃ stop, makeWatchpointStop hit executedSteps session
        = (.ok stop, { session with last_stop := stop })
      ∧ session.Reports .Watchpoint executedSteps stop := ⟨_, rfl, rfl, rfl, rfl, rfl⟩

/-- Conditions with a value are tried in order until one holds. -/
theorem findConditionalBreakpointHit_eq {cpu : CPU Unit} {address : ℕ}
    {breakpoints : List ConditionalBreakpoint}
    (hrange : ∀ breakpoint ∈ breakpoints,
      breakpoint.condition.InRange cpu.core.state.memory.size)
    (hpc : cpu.core.state.pc < 2 ^ 63) (hsp : cpu.core.state.sp < 2 ^ 63) :
    ∃ hit, findConditionalBreakpointHit cpu address breakpoints = .ok hit
      ∧ (hit.isSome = true ↔ ∃ breakpoint ∈ breakpoints, breakpoint.address = address
        ∧ breakpoint.condition.Holds cpu) := by
  induction breakpoints with
  | nil => exact ⟨none, rfl, by simp⟩
  | cons breakpoint rest ih =>
    obtain ⟨hit, hrest, hiff⟩ := ih fun other hmem => hrange other (List.mem_cons_of_mem _ hmem)
    rw [findConditionalBreakpointHit]
    simp only [List.exists_mem_cons_iff]
    by_cases haddress : breakpoint.address = address
    · have hin := hrange breakpoint List.mem_cons_self
      obtain ⟨value, hvalue⟩ := DebugCondition.exists_actualValue hin hpc hsp
      have hevaluate := DebugCondition.evaluate_of_actualValue hvalue
      rw [if_neg (not_not.mpr haddress), DebugCondition.validateForCPU_eq_ok.mpr hin, ok_bind,
        hvalue, ok_bind, hevaluate, ok_bind, DebugCondition.Holds, hevaluate]
      cases breakpoint.condition.operation.compare value.toInt
        breakpoint.condition.expected_value.toInt with
      | true => exact ⟨_, rfl, iff_of_true rfl (.inl ⟨haddress, rfl⟩)⟩
      | false => exact ⟨hit, hrest, hiff.trans (by simp)⟩
    · rw [if_pos haddress]
      exact ⟨hit, hrest, hiff.trans (by simp [haddress])⟩

/-- In a debugged process every condition has a value. -/
theorem Debugs.findConditionalBreakpointHit_eq (h : Debugs image session) :
    ∃ hit, findConditionalBreakpointHit session.cpu session.cpu.core.state.pc
        session.conditional_breakpoints = .ok hit
      ∧ (hit.isSome = true ↔ session.AtConditionalBreakpoint session.cpu) := by
  have hpc := h.context.pc_le
  have hsp := h.context.sp_le
  have hcode : (sessionConfinement image).len ≤ 1536 := h.valid.code_le
  exact DebugSession.findConditionalBreakpointHit_eq
    (fun breakpoint hmem => h.context.memory_size ▸ h.conditions breakpoint hmem)
    (by omega) (by omega)

theorem some_map_of_ok {m : Method DebugStop} {s s' : DebugSession} {stop : DebugStop}
    (h : m s = (.ok stop, s')) : (some <$> m) s = (.ok (some stop), s') := bind_of_ok h

/-- A loaded session tells whether an address has a breakpoint. -/
theorem hasBreakpoint_eq (h : session.loaded = true) (address : ℕ) :
    hasBreakpoint address session = (.ok (decide (address ∈ session.breakpoints)), session) := by
  simp only [hasBreakpoint, requireLoaded, bind_apply, get_apply, require_apply, h, if_true,
    gets_apply]

/-- The check for breakpoints finds the reason there is. -/
theorem stopAtBreakpoint_finds (h : Debugs image session) (executedSteps : ℕ) :
    Finds (stopAtBreakpoint executedSteps) session executedSteps session.breakpointReason := by
  obtain ⟨hit, hfind, hiff⟩ := h.findConditionalBreakpointHit_eq
  rw [breakpointReason]
  by_cases hplain : session.cpu.core.state.pc ∈ session.breakpoints
  · obtain ⟨stop, hstop, hreports⟩ := makeStop_eq session .Breakpoint executedSteps []
    rw [if_pos hplain]
    refine ⟨stop, ?_, hreports⟩
    simp only [stopAtBreakpoint, bind_apply, get_apply, hasBreakpoint_eq h.loaded, hplain,
      decide_true, if_true]
    exact some_map_of_ok hstop
  · rw [if_neg hplain]
    cases hit with
    | some hit =>
      obtain ⟨stop, hstop, hreports⟩ := makeConditionalBreakpointStop_eq session hit executedSteps
      rw [if_pos (hiff.mp rfl)]
      refine ⟨stop, ?_, hreports⟩
      simp only [stopAtBreakpoint, bind_apply, get_apply, hasBreakpoint_eq h.loaded, hplain,
        decide_false, Bool.false_eq_true, if_false, lift_apply, hfind]
      exact some_map_of_ok hstop
    | none =>
      rw [if_neg fun hat => absurd (hiff.mpr hat) nofun]
      show stopAtBreakpoint executedSteps session = (.ok none, session)
      simp only [stopAtBreakpoint, bind_apply, get_apply, hasBreakpoint_eq h.loaded, hplain,
        decide_false, Bool.false_eq_true, if_false, lift_apply, hfind, pure_apply]

/-- A stopped CPU is not ready. -/
theorem stoppedReason_ne_ready {reason : DebugStopReason}
    (h : session.stoppedReason = some reason) : reason ≠ .Ready := by
  unfold stoppedReason at h
  split_ifs at h <;> (obtain rfl := Option.some.inj h; exact nofun)

/-- The checks before a step find a stopped CPU, or else a breakpoint. -/
theorem stopBeforeStep_finds (h : Debugs image session) (executedSteps : ℕ) (skip : Bool) :
    Finds (stopBeforeStep executedSteps skip) session executedSteps
      (session.stoppedReason.or (if skip then none else session.breakpointReason)) := by
  have hclassify := classifyStoppedState_eq session executedSteps
  -- A stopped CPU comes before any breakpoint.
  cases hstopped : session.stoppedReason with
  | some reason =>
    rw [hstopped] at hclassify
    obtain ⟨stop, hstop, hreports⟩ := hclassify
    have hreason : stop.reason ≠ .Ready := hreports.reason ▸ stoppedReason_ne_ready hstopped
    refine ⟨stop, ?_, hreports⟩
    rw [stopBeforeStep, bind_of_ok hstop, if_pos hreason]
    rfl
  | none =>
    rw [hstopped] at hclassify
    have hcheck : stopBeforeStep executedSteps skip session
        = (if skip then pure none else stopAtBreakpoint executedSteps) session := by
      rw [stopBeforeStep, bind_of_ok hclassify]
      exact congrFun (if_neg (not_not.mpr rfl)) session
    rw [Option.none_or]
    cases skip with
    | true => exact hcheck
    | false =>
      have hbreakpoint := stopAtBreakpoint_finds h executedSteps
      simp only [Bool.false_eq_true, if_false] at hcheck ⊢
      cases hreason : session.breakpointReason with
      | some reason =>
        rw [hreason] at hbreakpoint
        obtain ⟨stop, hstop, hreports⟩ := hbreakpoint
        exact ⟨stop, hcheck.trans hstop, hreports⟩
      | none =>
        rw [hreason] at hbreakpoint
        exact hcheck.trans hbreakpoint

/-- The checks after a step find the reason there is. -/
theorem stopAfterStep_finds (session : DebugSession) (executedSteps : ℕ) :
    Finds (stopAfterStep executedSteps) session executedSteps session.reasonAfterStep := by
  have hclassify := classifyStoppedState_eq session executedSteps
  rw [stoppedReason] at hclassify
  rw [reasonAfterStep]
  by_cases herror : session.cpu.core.state.hasError
  · simp only [herror, if_true] at hclassify ⊢
    obtain ⟨stop, hstop, hreports⟩ := hclassify
    refine ⟨stop, ?_, hreports⟩
    rw [stopAfterStep, bind_of_ok hstop, if_pos (.inl hreports.reason)]
    rfl
  simp only [herror, if_false, Bool.false_eq_true] at hclassify ⊢
  by_cases hhalted : session.cpu.core.state.halted
  · simp only [hhalted, if_true] at hclassify ⊢
    obtain ⟨stop, hstop, hreports⟩ := hclassify
    refine ⟨stop, ?_, hreports⟩
    rw [stopAfterStep, bind_of_ok hstop, if_pos (.inr hreports.reason)]
    rfl
  simp only [hhalted, if_false, Bool.false_eq_true] at hclassify ⊢
  -- The end of the program has been reported already when a watchpoint takes its place.
  obtain ⟨after, session', hafter, hsession, hreason⟩ : ∃ after session',
      classifyStoppedState executedSteps session = (.ok after, session')
        ∧ (∃ last_stop, session' = { session with last_stop := last_stop })
        ∧ if session.atProgramEnd then session.Reports .ProgramEnd executedSteps after
            ∧ session' = { session with last_stop := after }
          else after.reason = .Ready ∧ session' = session := by
    by_cases hend : session.atProgramEnd
    · simp only [hend, if_true] at hclassify ⊢
      obtain ⟨stop, hstop, hreports⟩ := hclassify
      exact ⟨stop, _, hstop, ⟨stop, rfl⟩, hreports, rfl⟩
    · simp only [hend, if_false, Bool.false_eq_true] at hclassify ⊢
      exact ⟨_, session, hclassify, ⟨session.last_stop, rfl⟩, rfl, rfl⟩
  have hgoes : ¬ (after.reason = .Fault ∨ after.reason = .Halted) := by
    split_ifs at hreason
    · rw [hreason.1.reason]
      decide
    · rw [hreason.1]
      decide
  obtain ⟨last_stop, rfl⟩ := hsession
  cases hhit : session.findWatchpointHit with
  | some hit =>
    obtain ⟨stop, hstop, hreports⟩ := makeWatchpointStop_eq { session with last_stop := last_stop }
      hit executedSteps
    refine ⟨stop, ?_, hreports.reason, hreports.pc, hreports.executed_steps, hreports.total_steps⟩
    rw [stopAfterStep, bind_of_ok hafter, if_neg hgoes, bind_of_ok (get_apply _)]
    have hhit' : ({ session with last_stop := last_stop } : DebugSession).findWatchpointHit
        = some hit := hhit
    simp only [hhit']
    exact some_map_of_ok hstop
  | none =>
    have hcheck : stopAfterStep executedSteps session
        = (.ok (if after.reason ≠ .Ready then some after else none),
          { session with last_stop := last_stop }) := by
      have hhit' : ({ session with last_stop := last_stop } : DebugSession).findWatchpointHit
          = none := hhit
      rw [stopAfterStep, bind_of_ok hafter, if_neg hgoes, bind_of_ok (get_apply _)]
      simp only [hhit', pure_apply]
    simp only [Option.isSome_none, Bool.false_eq_true, if_false]
    split_ifs at hreason ⊢
    · obtain ⟨hreports, hlast⟩ := hreason
      refine ⟨after, ?_, hreports⟩
      rw [hcheck, if_pos (by rw [hreports.reason]; decide), hlast]
    · obtain ⟨hready, hlast⟩ := hreason
      show stopAfterStep executedSteps session = (.ok none, session)
      rw [hcheck, if_neg (not_not.mpr hready), hlast]

/-! ## The loop -/

/-- The session after `k` steps of its CPU. -/
def advanced [LongDouble] (session : DebugSession) (k : ℕ) : DebugSession :=
  { session with cpu := CPU.steps k session.cpu, total_steps := session.total_steps + k }

theorem advanced_succ [LongDouble] (session : DebugSession) (k : ℕ) :
    session.advanced (k + 1) = session.stepCpu.advanced k := by
  simp only [advanced, stepCpu, CPU.steps, Nat.add_assoc, Nat.add_comm 1 k]

/-- The reason to stop between two steps of the loop. -/
def reasonBetween (session : DebugSession) : Option DebugStopReason :=
  session.reasonAfterStep.or session.breakpointReason

/-- Without a reason after a step the CPU is not stopped. -/
theorem stoppedReason_of_reasonAfterStep (h : session.reasonAfterStep = none) :
    session.stoppedReason = none := by
  unfold reasonAfterStep at h
  unfold stoppedReason
  split_ifs at h ⊢
  rfl

theorem unlessStopped_of_some {check : Method (Option DebugStop)} {next : Method DebugStop}
    {session' : DebugSession} {stop : DebugStop} (h : check session = (.ok (some stop), session')) :
    unlessStopped check next session = (.ok stop, session') := bind_of_ok h

theorem unlessStopped_of_none {check : Method (Option DebugStop)} {next : Method DebugStop}
    (h : check session = (.ok none, session)) :
    unlessStopped check next session = next session := bind_of_ok h

/-- A run of the loop from `session` returns `outcome`: it takes `k` steps, with no reason to stop
ahead of the last. -/
structure StopsAfter [LongDouble] (session : DebugSession) (executedSteps remaining k : ℕ)
    (outcome : Except Str DebugStop × DebugSession) : Prop where
  le : k ≤ remaining
  earlier : ∀ i < k, (session.advanced i).reasonBetween = none
  stops : ∃ reason stop, outcome = (.ok stop, { session.advanced k with last_stop := stop })
    ∧ (session.advanced k).Reports reason (executedSteps + k) stop
    ∧ (session.advanced k).reasonBetween.or (if k = remaining then some .StepLimit else none)
      = some reason

/-- A loop that goes on stops one step later. -/
theorem StopsAfter.succ [LongDouble] {executedSteps remaining k : ℕ}
    {outcome : Except Str DebugStop × DebugSession} (hnone : session.reasonBetween = none)
    (h : StopsAfter session.stepCpu (executedSteps + 1) remaining k outcome) :
    StopsAfter session executedSteps (remaining + 1) (k + 1) outcome where
  le := Nat.succ_le_succ h.le
  earlier := by
    intro i hi
    cases i with
    | zero => exact hnone
    | succ i =>
      rw [advanced_succ]
      exact h.earlier i (Nat.lt_of_succ_lt_succ hi)
  stops := by
    rw [advanced_succ, ← Nat.add_assoc, Nat.add_right_comm]
    simpa only [Nat.add_right_cancel_iff] using h.stops

/-- A stop without another step. -/
theorem StopsAfter.here [LongDouble] {executedSteps remaining : ℕ} {reason : DebugStopReason}
    {stop : DebugStop} {outcome : Except Str DebugStop × DebugSession}
    (houtcome : outcome = (.ok stop, { session with last_stop := stop }))
    (hreports : session.Reports reason executedSteps stop)
    (hreason : session.reasonBetween.or (if 0 = remaining then some .StepLimit else none)
      = some reason) :
    StopsAfter session executedSteps remaining 0 outcome where
  le := Nat.zero_le _
  earlier := nofun
  stops := ⟨reason, stop, houtcome, hreports, hreason⟩

/-- The top of the loop behind a step: at a breakpoint it stops, else it does what is next. -/
theorem continueLoop_top [LongDouble] (h : Debugs image session)
    (hgoes : session.reasonAfterStep = none) {executedSteps remaining : ℕ} {next : Method DebugStop}
    (hnext : session.breakpointReason = none →
      ∃ k, StopsAfter session executedSteps remaining k (next session)) :
    ∃ k, StopsAfter session executedSteps remaining k
      (unlessStopped (stopBeforeStep executedSteps false) next session) := by
  have hbefore := stopBeforeStep_finds h executedSteps false
  rw [stoppedReason_of_reasonAfterStep hgoes, Option.none_or, if_neg Bool.false_ne_true] at hbefore
  cases hbreakpoint : session.breakpointReason with
  | some reason =>
    rw [hbreakpoint] at hbefore
    obtain ⟨stop, hstop, hreports⟩ := hbefore
    refine ⟨0, .here (unlessStopped_of_some hstop) hreports ?_⟩
    rw [reasonBetween, hgoes, hbreakpoint, Option.none_or, Option.some_or]
  | none =>
    rw [hbreakpoint] at hbefore
    rw [unlessStopped_of_none hbefore]
    exact hnext hbreakpoint

/-- From behind a step on, the loop stops at the first reason. -/
theorem continueLoop_stops [LongDouble] (h : Debugs image session) (executedSteps remaining : ℕ) :
    ∃ k, StopsAfter session executedSteps remaining k
      (unlessStopped (stopAfterStep executedSteps) (continueLoop executedSteps false remaining)
        session) := by
  -- On the steps left; the session and the count move with the loop.
  induction remaining generalizing session executedSteps with
  | zero =>
    have hafter := stopAfterStep_finds session executedSteps
    cases hgoes : session.reasonAfterStep with
    | some reason =>
      rw [hgoes] at hafter
      obtain ⟨stop, hstop, hreports⟩ := hafter
      refine ⟨0, .here (unlessStopped_of_some hstop) hreports ?_⟩
      rw [reasonBetween, hgoes, Option.some_or, Option.some_or]
    | none =>
      rw [hgoes] at hafter
      rw [unlessStopped_of_none hafter]
      refine continueLoop_top h hgoes fun hbreakpoint => ?_
      obtain ⟨stop, hstop, hreports⟩ := makeStop_eq session .StepLimit executedSteps
        "Debugger continue step limit reached"
      refine ⟨0, .here hstop hreports ?_⟩
      rw [reasonBetween, hgoes, hbreakpoint, Option.none_or, Option.none_or, if_pos rfl]
  | succ remaining ih =>
    have hafter := stopAfterStep_finds session executedSteps
    cases hgoes : session.reasonAfterStep with
    | some reason =>
      rw [hgoes] at hafter
      obtain ⟨stop, hstop, hreports⟩ := hafter
      refine ⟨0, .here (unlessStopped_of_some hstop) hreports ?_⟩
      rw [reasonBetween, hgoes, Option.some_or, Option.some_or]
    | none =>
      rw [hgoes] at hafter
      rw [unlessStopped_of_none hafter]
      refine continueLoop_top h hgoes fun hbreakpoint => ?_
      obtain ⟨k, hk⟩ := ih h.stepCpu (executedSteps + 1)
      refine ⟨k + 1, StopsAfter.succ ?_ hk⟩
      rw [reasonBetween, hgoes, hbreakpoint, Option.none_or]

/-! ## The first stop -/

/-- The `k`-th step of the session's CPU hits a watchpoint by the session's own check, `watchpointHit` on
the event that the step records. Whether that check sees every change of a watched value is another
matter. -/
def StepHits [LongDouble] (session : DebugSession) (k : ℕ) : Prop :=
  1 ≤ k ∧ ∃ event, (CPU.steps k session.cpu).trace = (CPU.steps (k - 1) session.cpu).trace ++ [event]
    ∧ (watchpointHit session.watchpoints event).isSome = true

/-- Breakpoints count after `k` steps: not at once when execution resumes from a breakpoint. -/
def Armed (session : DebugSession) (k : ℕ) : Prop :=
  1 ≤ k ∨ session.resumesFromBreakpoint = false

/-- There is a reason to stop after `k` steps of at most `maxSteps`. -/
def StopsAt [LongDouble] (session : DebugSession) (maxSteps k : ℕ) : Prop :=
  let cpu := CPU.steps k session.cpu
  cpu.core.state.hasError = true ∨ cpu.core.state.halted = true
    ∨ cpu.core.state.pc = session.metadata.code_end_exclusive
    ∨ session.StepHits k ∨ k = maxSteps
    ∨ (session.Armed k
      ∧ (cpu.core.state.pc ∈ session.breakpoints ∨ session.AtConditionalBreakpoint cpu))

/-- After `k` steps neither the CPU nor a watchpoint nor the end of the program stops the run. -/
def GoesOn [LongDouble] (session : DebugSession) (k : ℕ) : Prop :=
  let cpu := CPU.steps k session.cpu
  ¬ cpu.Stopped ∧ ¬ session.StepHits k ∧ cpu.core.state.pc ≠ session.metadata.code_end_exclusive

/-- The reason matches the state after `k` steps; the earlier of two reasons in this order is the
one reported. -/
def Matches [LongDouble] (session : DebugSession) (maxSteps k : ℕ) : DebugStopReason → Prop
  | .Fault => (CPU.steps k session.cpu).core.state.hasError = true
  | .Halted => (CPU.steps k session.cpu).core.state.hasError = false
      ∧ (CPU.steps k session.cpu).core.state.halted = true
  | .Watchpoint => ¬ (CPU.steps k session.cpu).Stopped ∧ session.StepHits k
  | .ProgramEnd => ¬ (CPU.steps k session.cpu).Stopped ∧ ¬ session.StepHits k
      ∧ (CPU.steps k session.cpu).core.state.pc = session.metadata.code_end_exclusive
  | .Breakpoint => session.GoesOn k ∧ session.Armed k
      ∧ (CPU.steps k session.cpu).core.state.pc ∈ session.breakpoints
  | .ConditionalBreakpoint => session.GoesOn k ∧ session.Armed k
      ∧ (CPU.steps k session.cpu).core.state.pc ∉ session.breakpoints
      ∧ session.AtConditionalBreakpoint (CPU.steps k session.cpu)
  | .StepLimit => session.GoesOn k
      ∧ ¬ (session.Armed k ∧ ((CPU.steps k session.cpu).core.state.pc ∈ session.breakpoints
        ∨ session.AtConditionalBreakpoint (CPU.steps k session.cpu)))
      ∧ k = maxSteps
  | .Ready | .StepComplete => False

/-- What continuing leaves: the first state with a reason to stop, reported with that reason. -/
structure Continues [LongDouble] (session : DebugSession) (maxSteps k : ℕ) (stop : DebugStop)
    (session' : DebugSession) : Prop where
  stops : session.StopsAt maxSteps k
  first : ∀ j < k, ¬ session.StopsAt maxSteps j
  reason : session.Matches maxSteps k stop.reason
  executed_steps : stop.executed_steps = k
  pc : stop.pc = (CPU.steps k session.cpu).core.state.pc
  session_eq : session' = { session.advanced k with last_stop := stop }

/-- One step more, made last. -/
theorem advanced_stepCpu [LongDouble] (session : DebugSession) (k : ℕ) :
    session.advanced (k + 1) = (session.advanced k).stepCpu := by
  induction k generalizing session with
  | zero => rfl
  | succ k ih => rw [advanced_succ, ih, ← advanced_succ]

/-- Steps keep the session on its image. -/
theorem Debugs.advanced [LongDouble] (h : Debugs image session) (k : ℕ) :
    Debugs image (session.advanced k) := by
  induction k with
  | zero => exact h
  | succ k ih =>
    rw [advanced_stepCpu]
    exact ih.stepCpu

/-- The watchpoints look at the last event. -/
theorem findWatchpointHit_of_trace {before : List TraceEvent} {event : TraceEvent}
    (h : session.cpu.trace = before ++ [event]) :
    session.findWatchpointHit = watchpointHit session.watchpoints event := by
  rw [findWatchpointHit, h, List.getLast?_concat, Option.bind_some]
  split_ifs with hempty
  · rw [List.isEmpty_iff.mp hempty, watchpointHit]
    split
    · rfl
    · rfl
  · rfl

/-- What the trace ends in behind a step is the step's own event. -/
theorem findWatchpointHit_advanced [LongDouble] (h : Debugs image session) {k : ℕ}
    (hrun : ¬ (CPU.steps k session.cpu).Stopped) :
    (session.advanced (k + 1)).findWatchpointHit.isSome = true ↔ session.StepHits (k + 1) := by
  have hk := h.advanced k
  have hm : (session.advanced k).cpu.setup.Recorded := hk.setup ▸ recorded_loadedSetup image
  have hsteps : (session.advanced (k + 1)).cpu = (session.advanced k).cpu.step :=
    congrArg DebugSession.cpu (advanced_stepCpu session k)
  rcases CPU.step_trace hm hk.message with ⟨hstopped, -⟩ | ⟨-, event, htrace, -⟩
  · exact absurd hstopped hrun
  · rw [← hsteps] at htrace
    rw [findWatchpointHit_of_trace htrace]
    constructor
    · intro hhit
      exact ⟨Nat.le_add_left 1 k, event, htrace, hhit⟩
    · rintro ⟨-, other, hother, hhit⟩
      have hsame : [event] = [other] := List.append_cancel_left (htrace.symm.trans hother)
      obtain rfl := List.singleton_inj.mp hsame
      exact hhit

/-- Both places where the loop looks for a reason, in the order of its checks. -/
def reasonAt (session : DebugSession) (hit armed limit : Bool) : Option DebugStopReason :=
  if session.cpu.core.state.hasError then some .Fault
  else if session.cpu.core.state.halted then some .Halted
  else if hit then some .Watchpoint
  else if session.atProgramEnd then some .ProgramEnd
  else if armed ∧ session.cpu.core.state.pc ∈ session.breakpoints then some .Breakpoint
  else if armed ∧ session.AtConditionalBreakpoint session.cpu then some .ConditionalBreakpoint
  else if limit then some .StepLimit
  else none

/-- The reasons after a step, in the order of their checks. -/
theorem reasonBetween_or (session : DebugSession) (limit : Prop) [Decidable limit] :
    session.reasonBetween.or (if limit then some .StepLimit else none)
      = session.reasonAt session.findWatchpointHit.isSome true (decide limit) := by
  simp only [reasonBetween, reasonAfterStep, breakpointReason, reasonAt, true_and, decide_eq_true_eq]
  split_ifs <;> rfl

/-- The reasons before a step, in the order of their checks. -/
theorem stoppedReason_or (session : DebugSession) (skip : Bool) :
    session.stoppedReason.or (if skip then none else session.breakpointReason)
      = session.reasonAt false (!skip) false := by
  cases skip <;> simp only [stoppedReason, breakpointReason, reasonAt, Bool.false_eq_true,
    Bool.not_true, Bool.not_false, if_false, if_true, false_and, true_and] <;> split_ifs <;> rfl

/-- The reason chosen is the one that matches. -/
theorem reasonAt_matches [LongDouble] (session : DebugSession) {maxSteps k : ℕ}
    {hit armed limit : Bool}
    (hhit : hit = true ↔ session.StepHits k) (harmed : armed = true ↔ session.Armed k)
    (hlimit : limit = true ↔ k = maxSteps) :
    match (session.advanced k).reasonAt hit armed limit with
    | some reason => session.Matches maxSteps k reason ∧ session.StopsAt maxSteps k
    | none => ¬ session.StopsAt maxSteps k := by
  rw [reasonAt]
  -- The checks are made in this order, so a later reason holds where the earlier ones do not.
  split_ifs with herror hhalted hwatch hend hplain hconditional hlast
  · exact ⟨herror, .inl herror⟩
  · exact ⟨⟨(Bool.not_eq_true _).mp herror, hhalted⟩, .inr (.inl hhalted)⟩
  · exact ⟨⟨not_or.mpr ⟨hhalted, herror⟩, hhit.mp hwatch⟩,
      .inr (.inr (.inr (.inl (hhit.mp hwatch))))⟩
  · have hpc := beq_iff_eq.mp hend
    exact ⟨⟨not_or.mpr ⟨hhalted, herror⟩, fun h => hwatch (hhit.mpr h), hpc⟩,
      .inr (.inr (.inl hpc))⟩
  all_goals
    -- From here on the session could go on.
    have hgoes : session.GoesOn k := ⟨not_or.mpr ⟨hhalted, herror⟩, fun h => hwatch (hhit.mpr h),
      fun hpc => hend (beq_iff_eq.mpr hpc)⟩
  · have harm := harmed.mp hplain.1
    exact ⟨⟨hgoes, harm, hplain.2⟩, .inr (.inr (.inr (.inr (.inr ⟨harm, .inl hplain.2⟩))))⟩
  · have harm := harmed.mp hconditional.1
    refine ⟨⟨hgoes, harm, fun hmem => hplain ⟨hconditional.1, hmem⟩, hconditional.2⟩, ?_⟩
    exact .inr (.inr (.inr (.inr (.inr ⟨harm, .inr hconditional.2⟩))))
  all_goals
    have hclear : ¬ (session.Armed k ∧ ((CPU.steps k session.cpu).core.state.pc ∈ session.breakpoints
        ∨ session.AtConditionalBreakpoint (CPU.steps k session.cpu))) := by
      rintro ⟨harm, hmem | hholds⟩
      · exact hplain ⟨harmed.mpr harm, hmem⟩
      · exact hconditional ⟨harmed.mpr harm, hholds⟩
  · have hk := hlimit.mp hlast
    exact ⟨⟨hgoes, hclear, hk⟩, .inr (.inr (.inr (.inr (.inl hk))))⟩
  · rintro (h | h | h | h | h | h)
    · exact herror h
    · exact hhalted h
    · exact hgoes.2.2 h
    · exact hgoes.2.1 h
    · exact hlast (hlimit.mpr h)
    · exact hclear h

/-- Ahead of the first step. -/
theorem reasonAt_start [LongDouble] (session : DebugSession) {maxSteps : ℕ} (hmax : 1 ≤ maxSteps) :
    match session.stoppedReason.or
      (if session.resumesFromBreakpoint then none else session.breakpointReason) with
    | some reason => session.Matches maxSteps 0 reason ∧ session.StopsAt maxSteps 0
    | none => ¬ session.StopsAt maxSteps 0 := by
  rw [stoppedReason_or]
  have harmed : (!session.resumesFromBreakpoint) = true ↔ session.Armed 0 := by
    rw [Bool.not_eq_true', Armed]
    exact ⟨.inr, fun h => h.resolve_left (by decide)⟩
  exact reasonAt_matches session (k := 0)
    (iff_of_false nofun fun h => absurd h.1 (by decide)) harmed
    (iff_of_false nofun (by omega))

/-- Behind a step. -/
theorem reasonAt_step [LongDouble] (h : Debugs image session) (maxSteps : ℕ) {k : ℕ}
    (hrun : ¬ (CPU.steps k session.cpu).Stopped) :
    match (session.advanced (k + 1)).reasonBetween.or
      (if k + 1 = maxSteps then some .StepLimit else none) with
    | some reason => session.Matches maxSteps (k + 1) reason ∧ session.StopsAt maxSteps (k + 1)
    | none => ¬ session.StopsAt maxSteps (k + 1) := by
  rw [reasonBetween_or]
  exact reasonAt_matches session (findWatchpointHit_advanced h hrun)
    (iff_of_true rfl (.inl (Nat.le_add_left 1 k))) decide_eq_true_iff

/-- Continuing a session stops at the first state with a reason to. -/
theorem continueExecution_stops_first [LongDouble] {image : ProcessImage} {session : DebugSession}
    (h : Reached image session) {maxSteps : ℕ} (hmax : 1 ≤ maxSteps) :
    ∃ k stop session', continueExecution maxSteps session = (.ok stop, session')
      ∧ session.Continues maxSteps k stop session' := by
  have hd := h.debugs
  have hloop : continueExecution maxSteps session
      = continueLoop 0 session.resumesFromBreakpoint maxSteps session := by
    have hlimit : (maxSteps != 0) = true := bne_iff_ne.mpr (by omega)
    simp only [continueExecution, requireLoaded, bind_apply, get_apply, require_apply, hd.loaded,
      if_true, hlimit]
  obtain ⟨remaining, rfl⟩ := Nat.exists_eq_add_of_le' hmax
  have hbefore := stopBeforeStep_finds hd 0 session.resumesFromBreakpoint
  have hstart := reasonAt_start session hmax
  rw [hloop, continueLoop]
  cases hreason : session.stoppedReason.or
      (if session.resumesFromBreakpoint then none else session.breakpointReason) with
  | some reason =>
    rw [hreason] at hbefore hstart
    obtain ⟨stop, hstop, hreports⟩ := hbefore
    refine ⟨0, stop, _, unlessStopped_of_some hstop, ?_⟩
    exact {
      stops := hstart.2
      first := nofun
      reason := hreports.reason ▸ hstart.1
      executed_steps := hreports.executed_steps
      pc := hreports.pc
      session_eq := rfl }
  | none =>
    rw [hreason] at hbefore hstart
    obtain ⟨k, hk⟩ := continueLoop_stops hd.stepCpu 1 remaining
    obtain ⟨reason, stop, houtcome, hreports, hchosen⟩ := hk.stops
    rw [unlessStopped_of_none hbefore]
    refine ⟨k + 1, stop, _, houtcome, ?_⟩
    -- No step before the last has left a reason to stop.
    have hfirst : ∀ j ≤ k, ¬ session.StopsAt (remaining + 1) j := by
      intro j
      induction j with
      | zero => exact fun _ => hstart
      | succ j ih =>
        intro hj
        have hprevious := ih (by omega)
        have hrun : ¬ (CPU.steps j session.cpu).Stopped := fun hstopped =>
          hprevious (hstopped.elim (fun h => .inr (.inl h)) .inl)
        have hnone := hk.earlier j (by omega)
        rw [← advanced_succ] at hnone
        have hstep := reasonAt_step hd (remaining + 1) hrun
        have hle := hk.le
        rw [hnone, Option.none_or, if_neg (by omega)] at hstep
        exact hstep
    have hrun : ¬ (CPU.steps k session.cpu).Stopped := fun hstopped =>
      hfirst k le_rfl (hstopped.elim (fun h => .inr (.inl h)) .inl)
    have hstep := reasonAt_step hd (remaining + 1) hrun
    simp only [← advanced_succ] at hreports hchosen ⊢
    simp only [Nat.add_right_cancel_iff, hchosen] at hstep
    exact {
      stops := hstep.2
      first := fun j hj => hfirst j (Nat.le_of_lt_succ hj)
      reason := hreports.reason ▸ hstep.1
      executed_steps := hreports.executed_steps.trans (Nat.add_comm 1 k)
      pc := hreports.pc
      session_eq := rfl }

/-- A session at a breakpoint on its first instruction goes on from there. -/
theorem continueExecution_stops_first_resuming :
    letI : LongDouble := LongDouble.x87
    let image := imageOf loadFirstWord (Str.ofString "load")
    ∃ session, Reached image session ∧ session.resumesFromBreakpoint = true
      ∧ ∃ k stop session', continueExecution 5 session = (.ok stop, session')
        ∧ session.Continues 5 k stop session' := by
  intro image
  let _ : LongDouble := LongDouble.x87
  have hname : Str.ofString "load" ≠ [] := by decide
  have hv : ValidImage image := loadable_loadFirstWord.validImage hname
  have h : Reached image ((((DebugSession.loadImage image DebugSession.initial).2.after
      (.addBreakpoint 512)).after (.continueExecution 5))) := by
    exact .command (.command (reached_loadImage hv (fun _ => rfl) DebugSession.initial) _) _
  refine ⟨_, h, ?_, @continueExecution_stops_first LongDouble.x87 image _ h 5 (by decide)⟩
  decide +kernel

end DebugSession

end ZeroCpu.Debug
