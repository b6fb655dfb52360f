import ZeroCpu.Debug.MultiProcessRuns
import ZeroCpu.Kernel.Confinement

/-!
# Resuming from a breakpoint

Reference: `src/debug/MultiProcessDebugSession.cpp`, `continueExecution`,
`armResumeSkipFromLastStop`, `refreshResumeSkip`.

The skip of the breakpoint that execution resumes from stays armed while other processes run, and
until PC of the stopped process has changed. An instruction that leaves PC where it was leaves the
skip armed.
-/

namespace ZeroCpu.Debug

open Library Binary Kernel Sys Exec

variable {H : Type}

namespace MultiProcessDebugSession

/-! ## The place execution has resumed from -/

/-- The running process and its PC. -/
def place (session : MultiProcessDebugSession H) : ProcessId × ℕ :=
  (session.runtime.table.running_pid, session.runtime.cpu.core.state.pc)

/-- The place of a stop at a breakpoint. -/
def stoppedPlace (stop : MultiProcessDebugStop) : Option (ProcessId × ℕ) :=
  if stop.reason = .Breakpoint ∨ stop.reason = .ConditionalBreakpoint then
    some (stop.hit_pid, stop.hit_address)
  else none

instance (rt : Runtime H) : Decidable (TimerPreemptiveScheduler.Due rt) :=
  inferInstanceAs (Decidable (_ ∧ _))

/-- A step executes an instruction of the running process, which is not switched out ahead of it. -/
def executes (session : MultiProcessDebugSession H) : Bool :=
  session.runtime_state == .Running
    && match MultiProcessRunner.completeAtEnd session.runtime with
      | .ok rt => decide (¬ TimerPreemptiveScheduler.Due rt)
      | .error _ => false

/-- The place that an event leaves to be resumed from: that of the last stop, until the instruction
there has been executed. -/
def resumptionAfter (resumption : Option (ProcessId × ℕ)) : Event H → Option (ProcessId × ℕ)
  | .resume session => (stoppedPlace session.last_stop).or resumption
  | .step session =>
      if resumption = some session.place ∧ session.executes then none else resumption

/-- The place execution has resumed from and not yet moved on from. -/
def resumption (events : List (Event H)) : Option (ProcessId × ℕ) :=
  events.foldl resumptionAfter none

theorem resumption_concat (events : List (Event H)) (event : Event H) :
    resumption (events ++ [event]) = resumptionAfter (resumption events) event :=
  List.foldl_append ..

/-- The running process is at a plain breakpoint, or at a conditional one whose condition holds. -/
def AtBreakpoint (session : MultiProcessDebugSession H) : Prop :=
  session.place ∈ session.breakpoints ∨ ∃ breakpoint ∈ session.conditional_breakpoints,
    (breakpoint.pid, breakpoint.address) = session.place
      ∧ breakpoint.condition.Holds session.runtime.cpu

/-- A step from the session returns, and its instruction stops the process or moves it elsewhere. -/
structure MovesOn [LongDouble] (session : MultiProcessDebugSession H) : Prop where
  returns : ∃ stop session', step session = (.ok stop, session')
  leaves : ∀ rt, MultiProcessRunner.completeAtEnd session.runtime = .ok rt →
    TimerPreemptiveScheduler.Stopped rt.cpu.step
      ∨ rt.cpu.step.core.state.pc ≠ session.runtime.cpu.core.state.pc

/-- Where an event executes the instruction that execution has resumed from, it moves on. -/
def Event.MovesOn [LongDouble] (before : List (Event H)) : Event H → Prop
  | .resume _ => True
  | .step session =>
      resumption before = some session.place → session.executes = true → session.MovesOn

/-- So does every event, behind the ones before it. -/
def MoveOn [LongDouble] (events : List (Event H)) : Prop :=
  ∀ (i : ℕ) (h : i < events.length), events[i].MovesOn (events.take i)

/-- The first events of a run that moves on move on. -/
theorem MoveOn.of_append [LongDouble] {events later : List (Event H)}
    (h : MoveOn (events ++ later)) : MoveOn events := by
  intro i hi
  have hmoves := h i (by rw [List.length_append]; omega)
  rwa [List.getElem_append_left hi, List.take_append_of_le_length (le_of_lt hi)] at hmoves

/-- The last event of a run that moves on moves on. -/
theorem MoveOn.last [LongDouble] {events : List (Event H)} {event : Event H}
    (h : MoveOn (events ++ [event])) : event.MovesOn events := by
  have hmoves := h events.length (by simp)
  rwa [List.getElem_concat_length rfl, List.take_left] at hmoves

/-! ## The skip -/

/-- The table is in order, the session knows the state of the lifecycle, and a skip that is armed is
the place execution has resumed from. -/
structure Latched (events : List (Event H)) (session : MultiProcessDebugSession H) : Prop where
  settled : ProcessLifecycleManager.Settles session.runtime_state session.runtime
  skip : session.resume_skip_active = true →
    resumption events = some (session.resume_skip_pid, session.resume_skip_address)

variable {events : List (Event H)} {session session' : MultiProcessDebugSession H}

/-- Quiet changes leave the latch alone. -/
theorem Latched.quiet (h : Latched events session) (hquiet : Quiet session session') :
    Latched events session' where
  settled := by
    rw [hquiet.runtime, hquiet.runtime_state]
    exact h.settled
  skip hactive := by
    obtain ⟨hactive', hpid, haddress⟩ := hquiet.skip hactive
    rw [hpid, haddress]
    exact h.skip hactive'

/-- Quiet methods leave the latch alone. -/
theorem Latched.keeps {α : Type} {m : Method H α}
    (hm : ∀ s : MultiProcessDebugSession H, Keeps (Quiet s) m) (h : Latched events session) :
    Latched events (m session).2 :=
  h.quiet (hm session session (Quiet.refl session))

/-- Arming the skip is resuming from the last stop. -/
theorem Latched.arm (h : Latched events session) :
    Latched (events ++ [.resume session]) (armResumeSkipFromLastStop session).2 := by
  simp only [armResumeSkipFromLastStop, modify_apply]
  split_ifs with hstopped
  · refine ⟨h.settled, fun _ => ?_⟩
    rw [resumption_concat, resumptionAfter, stoppedPlace, if_pos hstopped, Option.some_or]
  · refine ⟨h.settled, fun hactive => ?_⟩
    rw [resumption_concat, resumptionAfter, stoppedPlace, if_neg hstopped, Option.none_or]
    exact h.skip hactive

/-- What a snapshot says about where the process is. -/
theorem processSnapshot_eq_ok {pid : ProcessId} {snapshot : ProcessDebugSnapshot}
    (hinv : session.runtime.table.Invariant) (h : session.processSnapshot pid = .ok snapshot) :
    ∃ process, session.runtime.table.processes.find? pid = some process
      ∧ (snapshot.terminated = true ↔ process.state = .Terminated)
      ∧ snapshot.context.pc = (liveState session.runtime.cpu process).pc := by
  simp only [processSnapshot, requireProcess, Library.bind_eq_ok] at h
  obtain ⟨process, hprocess, context, hcontext, h⟩ := h
  obtain rfl := Except.ok.inj h
  cases hfind : session.runtime.table.processes.find? pid with
  | none =>
    rw [hfind] at hprocess
    cases hprocess
  | some found =>
    rw [hfind] at hprocess
    obtain rfl := Except.ok.inj hprocess
    refine ⟨found, rfl, ?_, ?_⟩
    · rw [ProcessDebugSnapshot.terminated, Bool.and_eq_true, beq_iff_eq]
      exact ⟨And.left, fun hstate => ⟨hstate, (hinv.entry hfind).metadata.mpr hstate⟩⟩
    · have hrunning := MultiProcessRunner.isRunning_iff hinv hfind
      rw [MultiProcessRunner.finalContext] at hcontext
      dsimp only
      rw [liveState]
      -- The running process is shown from the CPU, the others from the table.
      by_cases hstate : found.state = .Running
      · rw [if_pos (hrunning.mpr hstate)] at hcontext
        simp only [captureProcessContextSnapshot, Library.bind_eq_ok] at hcontext
        obtain ⟨_, -, _, -, hcontext⟩ := hcontext
        obtain rfl := Except.ok.inj hcontext
        rw [if_pos hstate]
        rfl
      · rw [if_neg fun hrun => hstate (hrunning.mp hrun)] at hcontext
        obtain rfl := Except.ok.inj hcontext
        rw [if_neg hstate]
        rfl

/-- A skip that is still armed behind a refresh is for a live process at its address. -/
theorem refreshResumeSkip_eq_ok {u : Unit} (hinv : session.runtime.table.Invariant)
    (h : refreshResumeSkip session = (.ok u, session'))
    (hactive : session'.resume_skip_active = true) :
    session' = session ∧ ∃ process,
      session.runtime.table.processes.find? session.resume_skip_pid = some process
      ∧ process.state ≠ .Terminated
      ∧ (liveState session.runtime.cpu process).pc = session.resume_skip_address := by
  rw [refreshResumeSkip, Exec.get_bind_eq_ok] at h
  split_ifs at h with hoff hnone
  · obtain ⟨-, rfl⟩ := Exec.pure_eq_ok.mp h
    rw [hactive] at hoff
    cases hoff
  · obtain rfl := Exec.modify_eq_ok.mp h
    cases hactive
  · rw [Exec.lift_bind_eq_ok] at h
    obtain ⟨snapshot, hsnapshot, h⟩ := h
    split_ifs at h with hleft
    · obtain rfl := Exec.modify_eq_ok.mp h
      cases hactive
    · obtain ⟨-, rfl⟩ := Exec.pure_eq_ok.mp h
      obtain ⟨process, hprocess, hterminated, hpc⟩ := processSnapshot_eq_ok hinv hsnapshot
      rw [Bool.or_eq_true, not_or, hterminated, bne_iff_ne, not_not, hpc] at hleft
      exact ⟨rfl, process, hprocess, hleft⟩

/-! ## Steps -/

/-- A step by the lifecycle keeps all but the address of the skip, which it can switch off. -/
theorem stepProcess_settles [LongDouble] (before : ProcessId)
    (h : ProcessLifecycleManager.Settles session.runtime_state session.runtime) :
    let after := (stepProcess before session).2
    ProcessLifecycleManager.Settles after.runtime_state after.runtime
      ∧ (after.resume_skip_active = true → session.resume_skip_active = true
        ∧ after.resume_skip_pid = session.resume_skip_pid
        ∧ after.resume_skip_address = session.resume_skip_address) := by
  simp only [stepProcess, bind_apply, get_apply, lift_apply, modify_apply, Exec.zoom_apply]
  cases hprepared : MultiProcessRunner.completeAtEnd session.runtime with
  | error message => exact ⟨h, fun hactive => ⟨hactive, rfl, rfl⟩⟩
  | ok prepared =>
    have hprep := MultiProcessRunner.completeAtEnd_eq_ok hprepared
    have hsettled : ProcessLifecycleManager.Settles session.runtime_state prepared :=
      ⟨hprep.table.symm ▸ h.invariant, hprep.lifecycle.symm ▸ h.state⟩
    have hstep := ProcessLifecycleManager.step_settles session.runtime_state prepared hsettled
    dsimp only [runtimeRef]
    generalize ProcessLifecycleManager.step prepared = out at hstep ⊢
    rcases out with ⟨message | result, after⟩
    · exact ⟨hstep, fun hactive => ⟨hactive, rfl, rfl⟩⟩
    · dsimp only
      -- The latch may be disarmed at the end of a step, never armed.
      have hquiet := keeps_refreshResumeSkip _ (Quiet.refl
        (recordStep session.runtime before result { session with runtime := after }))
      generalize refreshResumeSkip
        (recordStep session.runtime before result { session with runtime := after }) = refreshed
        at hquiet ⊢
      have hgoal : ProcessLifecycleManager.Settles refreshed.2.runtime_state refreshed.2.runtime
          ∧ (refreshed.2.resume_skip_active = true → session.resume_skip_active = true
            ∧ refreshed.2.resume_skip_pid = session.resume_skip_pid
            ∧ refreshed.2.resume_skip_address = session.resume_skip_address) := by
        refine ⟨?_, hquiet.skip⟩
        rw [hquiet.runtime, hquiet.runtime_state]
        exact ⟨hstep.invariant, hstep.state⟩
      rcases refreshed with ⟨message | u, refreshed⟩ <;> exact hgoal

/-- An instruction that moves on from the place execution has resumed from switches the skip off. -/
theorem stepProcess_clears [LongDouble] {before : ProcessId} {result : ProcessLifecycleStepResult}
    (h : ProcessLifecycleManager.Settles session.runtime_state session.runtime)
    (hne : session.runtime.table.running_pid ≠ 0)
    (hplace : (session.resume_skip_pid, session.resume_skip_address) = session.place)
    (hexecutes : session.executes = true)
    (hleaves : ∀ rt, MultiProcessRunner.completeAtEnd session.runtime = .ok rt →
      TimerPreemptiveScheduler.Stopped rt.cpu.step
        ∨ rt.cpu.step.core.state.pc ≠ session.runtime.cpu.core.state.pc)
    (hstep : stepProcess before session = (.ok result, session')) :
    session'.resume_skip_active = false := by
  refine (Bool.not_eq_true _).mp fun hactive => ?_
  rw [stepProcess, Exec.get_bind_eq_ok, Exec.lift_bind_eq_ok] at hstep
  obtain ⟨prepared, hprepared, hstep⟩ := hstep
  rw [Exec.modify_bind_eq_ok, Exec.bind_eq_ok] at hstep
  obtain ⟨result, _, hzoom, hstep⟩ := hstep
  obtain ⟨after, hlifecycle, rfl⟩ := Exec.zoom_eq_ok.mp hzoom
  rw [Exec.modify_bind_eq_ok, Exec.bind_eq_ok] at hstep
  obtain ⟨_, refreshed, hrefresh, hstep⟩ := hstep
  obtain ⟨-, rfl⟩ := Exec.pure_eq_ok.mp hstep
  rw [executes, Bool.and_eq_true, beq_iff_eq, hprepared] at hexecutes
  obtain ⟨hrunning, hquiet⟩ := hexecutes
  have hprep := MultiProcessRunner.completeAtEnd_eq_ok hprepared
  have hinv : prepared.table.Invariant := hprep.table.symm ▸ h.invariant
  have hstate : prepared.lifecycle.state = .Running :=
    hprep.lifecycle.symm ▸ h.state.trans hrunning
  have hlife := ProcessLifecycleManager.step_eq_ok hinv hstate hlifecycle
  have hsettled := (ProcessLifecycleManager.step_settles .Running).ok ⟨hinv, hstate⟩ hlifecycle
  obtain ⟨-, process, hprocess, hlive, hpc⟩ :=
    refreshResumeSkip_eq_ok hsettled.invariant hrefresh hactive
  obtain ⟨hpid, haddress⟩ : session.resume_skip_pid = session.runtime.table.running_pid
      ∧ session.resume_skip_address = session.runtime.cpu.core.state.pc := Prod.ext_iff.mp hplace
  have hprocess' : after.table.processes.find? prepared.table.running_pid = some process := by
    rw [hprep.table, ← hpid]
    exact hprocess
  rcases ProcessLifecycleManager.terminated_or_pc_ne_of_step hinv (hprep.table.symm ▸ hne)
    (of_decide_eq_true hquiet) (hleaves prepared hprepared) hlife hprocess' with hterminated | hleft
  · exact hlive hterminated
  · exact hleft (hpc.trans haddress)

/-- A step either takes no lifecycle step, or it goes on with the running process. -/
theorem step_cases [LongDouble] (session : MultiProcessDebugSession H) :
    (Quiet session (step session).2
        ∧ ¬ (session.executes = true ∧ ∃ stop session', step session = (.ok stop, session')))
      ∨ session.runtime_state = .Running ∧ session.runtime.table.running_pid ≠ 0
        ∧ step session = (stepProcess session.runtime.table.running_pid >>= stopAfterStep
          session.runtime.cpu.trace.length session.runtime.table.running_pid) session := by
  simp only [step, requireStarted, bind_apply, get_apply, require_apply]
  cases session.started with
  | false => exact .inl ⟨Quiet.refl session, fun ⟨_, _, _, h⟩ => nomatch (Prod.ext_iff.mp h).1⟩
  | true =>
    simp only [if_true]
    by_cases hrunning : session.runtime_state = .Running
    · rw [if_neg (not_not.mpr hrunning)]
      simp only [bind_apply, require_apply, lift_apply]
      cases hpid : session.runtime.table.hasRunningProcess with
      | false =>
        exact .inl ⟨Quiet.refl session, fun ⟨_, _, _, h⟩ => nomatch (Prod.ext_iff.mp h).1⟩
      | true =>
        have hne := ProcessTable.hasRunningProcess_iff.mp hpid
        rw [TimerPreemptiveScheduler.runningProcessId_eq_ok.mpr ⟨hne, rfl⟩]
        exact .inr ⟨hrunning, hne, rfl⟩
    · rw [if_pos hrunning]
      refine .inl ⟨keeps_makeTerminalStop 0 session (Quiet.refl session), fun h => ?_⟩
      rw [executes, beq_eq_false_iff_ne.mpr hrunning, Bool.false_and] at h
      cases h.1

/-- A step elsewhere leaves the resumption alone. -/
theorem resumption_step_of_not {session : MultiProcessDebugSession H}
    (h : ¬ (resumption events = some session.place ∧ session.executes = true)) :
    resumption (events ++ [.step session]) = resumption events := by
  rw [resumption_concat, resumptionAfter, if_neg h]

/-- A step leaves the skip for the place execution has resumed from, and for no other. -/
theorem Latched.step [LongDouble] (h : Latched events session)
    (hmoves : resumption events = some session.place → session.executes = true → session.MovesOn) :
    Latched (events ++ [.step session]) (step session).2 := by
  rcases step_cases session with ⟨hquiet, hnone⟩ | ⟨-, hne, hstep⟩
  · have hsame : resumption (events ++ [.step session]) = resumption events :=
      resumption_step_of_not fun hresumed =>
        hnone ⟨hresumed.2, (hmoves hresumed.1 hresumed.2).returns⟩
    refine ⟨(h.quiet hquiet).settled, fun hactive => ?_⟩
    rw [hsame]
    exact (h.quiet hquiet).skip hactive
  · obtain ⟨hsettled, hskip⟩ := stepProcess_settles session.runtime.table.running_pid h.settled
    have hquiet : Quiet (stepProcess session.runtime.table.running_pid session).2
        (MultiProcessDebugSession.step session).2 := by
      rw [hstep, bind_apply]
      rcases stepProcess session.runtime.table.running_pid session with ⟨message | result, t⟩
      · exact Quiet.refl t
      · exact keeps_stopAfterStep _ _ _ t (Quiet.refl t)
    refine Latched.quiet ⟨hsettled, fun hactive => ?_⟩ hquiet
    obtain ⟨hactive', hpid, haddress⟩ := hskip hactive
    have hplace := h.skip hactive'
    rw [hpid, haddress, resumption_step_of_not, hplace]
    -- Where the step uses the resumption up, it has switched the skip off.
    rintro ⟨hresumed, hexecutes⟩
    obtain ⟨⟨stop, session', hreturns⟩, hleaves⟩ := hmoves hresumed hexecutes
    rw [hstep, Exec.bind_eq_ok] at hreturns
    obtain ⟨result, t, hprocess, -⟩ := hreturns
    have hoff := stepProcess_clears h.settled hne (Option.some.inj (hplace.symm.trans hresumed))
      hexecutes hleaves hprocess
    rw [hprocess] at hactive
    exact absurd (hoff.symm.trans hactive) nofun

/-! ## Checks -/

/-- Where no breakpoint is hit, no condition holds. -/
theorem not_holds_of_findConditionalBreakpointHit {W : Type} {cpu : CPU W} {pid : ProcessId}
    {address : ℕ} {breakpoints : List ProcessConditionalBreakpoint}
    (h : findConditionalBreakpointHit cpu pid address breakpoints = .ok none)
    {breakpoint : ProcessConditionalBreakpoint} (hmem : breakpoint ∈ breakpoints)
    (hpid : breakpoint.pid = pid) (haddress : breakpoint.address = address) :
    ¬ breakpoint.condition.Holds cpu := by
  induction breakpoints with
  | nil => exact absurd hmem List.not_mem_nil
  | cons head rest ih =>
    rw [findConditionalBreakpointHit] at h
    split_ifs at h with helsewhere
    · rcases List.mem_cons.mp hmem with rfl | hmem
      · exact absurd haddress (helsewhere.resolve_left (not_not.mpr hpid))
      · exact ih h hmem
    · simp only [Library.bind_eq_ok] at h
      obtain ⟨_, -, actual, -, matched, hmatched, h⟩ := h
      cases matched with
      | true => cases h
      | false =>
        rcases List.mem_cons.mp hmem with rfl | hmem
        · rw [DebugCondition.Holds, hmatched]
          exact nofun
        · exact ih h hmem

/-- What reports a stop finds one. -/
theorem map_some_ne {m : Method H MultiProcessDebugStop} :
    (some <$> m) session ≠ (.ok none, session') := by
  intro h
  have hbind : (m >>= fun stop => pure (some stop)) session = (.ok none, session') := h
  obtain ⟨stop, t, -, hpure⟩ := Exec.bind_eq_ok.mp hbind
  cases (Exec.pure_eq_ok.mp hpure).1

/-- The checks let a process go on from a breakpoint only where they skip it. -/
theorem stopBeforeStep_eq_none {executedSteps : ℕ}
    (h : stopBeforeStep executedSteps session = (.ok none, session'))
    (hbreakpoint : session'.AtBreakpoint) :
    session'.resume_skip_active = true
      ∧ (session'.resume_skip_pid, session'.resume_skip_address) = session'.place := by
  rw [stopBeforeStep, Exec.get_bind_eq_ok] at h
  split_ifs at h with hnone
  · exact absurd h map_some_ne
  · rw [stopAtBreakpoint, Exec.bind_eq_ok] at h
    obtain ⟨_, refreshed, -, h⟩ := h
    rw [Exec.get_bind_eq_ok, Exec.lift_bind_eq_ok] at h
    obtain ⟨pid, hpid, h⟩ := h
    obtain ⟨-, rfl⟩ := TimerPreemptiveScheduler.runningProcessId_eq_ok.mp hpid
    rw [Bool.or_false] at h
    split_ifs at h with hskips hplain
    · obtain ⟨-, rfl⟩ := Exec.pure_eq_ok.mp h
      rw [skipsResumed, Bool.and_eq_true, Bool.and_eq_true, beq_iff_eq, beq_iff_eq] at hskips
      exact ⟨hskips.1.1, Prod.ext hskips.1.2 hskips.2⟩
    · exact absurd h map_some_ne
    · rw [Exec.lift_bind_eq_ok] at h
      obtain ⟨hit, hhit, h⟩ := h
      cases hit with
      | some hit => exact absurd h map_some_ne
      | none =>
        obtain ⟨-, rfl⟩ := Exec.pure_eq_ok.mp h
        rcases hbreakpoint with hmem | ⟨breakpoint, hmem, hplace, hholds⟩
        · exact absurd hmem hplain
        · obtain ⟨hpid, haddress⟩ := Prod.ext_iff.mp hplace
          exact absurd hholds (not_holds_of_findConditionalBreakpointHit hhit hmem hpid haddress)

/-- A phase that follows the checks of `continueExecution` is at a breakpoint only where they have
skipped it. -/
def Checked : Phase → MultiProcessDebugSession H → Prop
  | .continueStep _ _, session => session.AtBreakpoint → session.resume_skip_active = true
      ∧ (session.resume_skip_pid, session.resume_skip_address) = session.place
  | .arming next, _ => ∀ session : MultiProcessDebugSession H, Checked next session
  | _, _ => True

/-- A command starts with the checks of its phase made. -/
theorem checked_start (command : Command) (session : MultiProcessDebugSession H) :
    Checked (phaseAfter (command.start session).1) (command.start session).2 := by
  cases command with
  | step => exact trivial
  | continueExecution maxSteps =>
    simp only [Command.start, unlessOver, bind_apply]
    rcases stopBeforeContinue maxSteps session with ⟨message | stop, t⟩
    · exact trivial
    · cases stop with
      | some stop => exact trivial
      | none => exact fun _ => trivial
  | stepSelectedSourceLine maxSteps =>
    simp only [Command.start, bind_apply]
    rcases findSourceStart maxSteps session with ⟨message | stop | start, t⟩
    · exact trivial
    · exact trivial
    · exact fun _ => trivial
  | _ =>
    rw [Command.start, (call_idle _ session).1]
    exact trivial

/-- A phase leaves the checks of the next one made. -/
theorem checked_advance [LongDouble] {phase : Phase} (h : Checked phase session) :
    Checked (phaseAfter (phase.advance session).1) (phase.advance session).2 := by
  -- A step follows a check only when the check found nothing.
  cases phase with
  | idle => exact trivial
  | arming next => exact h _
  | stepping =>
    rw [Phase.advance, (call_idle _ session).1]
    exact trivial
  | continuing executedSteps remaining =>
    cases remaining with
    | zero =>
      rw [Phase.advance, (call_idle _ session).1]
      exact trivial
    | succ remaining =>
      simp only [Phase.advance, unlessOver, bind_apply]
      cases hcheck : stopBeforeStep executedSteps session with
      | mk result t =>
        rcases result with message | stop
        · exact trivial
        · cases stop with
          | some stop => exact trivial
          | none => exact stopBeforeStep_eq_none hcheck
  | continueStep executedSteps remaining =>
    simp only [Phase.advance, unlessOver, bind_apply]
    rcases stopAtStep executedSteps session with ⟨message | stop, t⟩
    · exact trivial
    · cases stop <;> exact trivial
  | sourceStepping start progress executedSteps remaining =>
    cases remaining with
    | zero =>
      rw [Phase.advance, (call_idle _ session).1]
      exact trivial
    | succ remaining =>
      simp only [Phase.advance, unlessOver, bind_apply]
      rcases stopBeforeSourceStep start progress executedSteps (remaining + 1) session with
        ⟨message | stop, t⟩
      · exact trivial
      · cases stop <;> exact trivial
  | sourceStep start executedSteps remaining =>
    simp only [Phase.advance, unlessOver, bind_apply]
    rcases stopAtStep executedSteps session with ⟨message | stop, t⟩
    · exact trivial
    · cases stop with
      | some stop => exact trivial
      | none =>
        simp only [bind_apply]
        rcases MultiProcessDebugSession.sourceProgress start t with ⟨message | progress, u⟩
        · exact trivial
        · exact trivial

/-! ## Runs -/

variable {host : H} {images : List ProcessImage} {options : MultiProcessDebugOptions H}
  {phase : Phase}

/-- A new session has no latch set. -/
theorem latched_new (h : new host images options = .ok session) : Latched [] session := by
  obtain ⟨state, hboot, hruntime, hstate, -, hoff⟩ := new_eq_ok h
  obtain ⟨-, -, table, timer, selected, d, hcreated, -, hd, rfl⟩ :=
    MultiProcessRunner.boot_eq_ok hboot
  refine ⟨?_, fun hactive => absurd (hoff.symm.trans hactive) nofun⟩
  rw [hruntime, hstate]
  exact ⟨(find?_of_dispatchNext hcreated.invariant hd).1, rfl⟩

/-- A part of a method keeps the latch right. -/
theorem Latched.advance [LongDouble] (h : Latched events session)
    (hclean : MoveOn (events ++ phase.events session)) :
    Latched (events ++ phase.events session) (phase.advance session).2 := by
  refine holds_advance Latched.quiet (fun hevents => ?_) (fun hevents => ?_) fun hevents => ?_
  · rw [hevents, List.append_nil]
    exact h
  · rw [hevents]
    exact h.arm
  · rw [hevents] at hclean ⊢
    exact h.step hclean.last

/-- In a run whose resumed instructions move on, the skip is the place execution has resumed from,
and the checks of `continueExecution` have seen the breakpoints. -/
theorem Run.latched [LongDouble] (h : Run host images options events phase session)
    (hclean : MoveOn events) : Latched events session ∧ Checked phase session := by
  induction h with
  | created hnew => exact ⟨latched_new hnew, trivial⟩
  | command hrun command ih =>
    exact ⟨(ih hclean).1.keeps fun _ => keeps_start command, checked_start command _⟩
  | advance hrun ih =>
    obtain ⟨hlatched, hchecked⟩ := ih hclean.of_append
    exact ⟨hlatched.advance hclean, checked_advance hchecked⟩

/-! ## Steps at breakpoints -/

/-- A step that `continueExecution` takes at a breakpoint is of the instruction that execution has
resumed from and that has not been executed since. -/
theorem continueExecution_at_breakpoint [LongDouble] {executedSteps remaining : ℕ}
    (h : Run host images options events (.continueStep executedSteps remaining) session)
    (hclean : MoveOn events) (hbreakpoint : session.AtBreakpoint) :
    resumption events = some session.place := by
  obtain ⟨hlatched, hchecked⟩ := h.latched hclean
  obtain ⟨hactive, hplace⟩ := hchecked hbreakpoint
  rw [hlatched.skip hactive, hplace]

instance {ε α : Type} (r : Except ε α) (p : α → Prop) [DecidablePred p] :
    Decidable (∀ a, r = .ok a → p a) :=
  match r with
  | .ok a => decidable_of_iff (p a) ⟨fun h _ heq => Except.ok.inj heq ▸ h, fun h => h a rfl⟩
  | .error _ => .isTrue nofun

instance {ε σ α : Type} (r : Except ε α × σ) : Decidable (∃ a s, r = (.ok a, s)) :=
  match r with
  | (.ok a, s) => .isTrue ⟨a, s, rfl⟩
  | (.error _, _) => .isFalse nofun

instance {W : Type} (cpu : CPU W) : Decidable (TimerPreemptiveScheduler.Stopped cpu) :=
  inferInstanceAs (Decidable (_ ∨ _))

instance [LongDouble] (session : MultiProcessDebugSession H) : Decidable session.MovesOn :=
  decidable_of_iff (_ ∧ _) ⟨fun h => ⟨h.1, h.2⟩, fun h => ⟨h.returns, h.leaves⟩⟩

instance [LongDouble] (before : List (Event H)) (event : Event H) :
    Decidable (event.MovesOn before) :=
  match event with
  | .resume _ => .isTrue trivial
  | .step session => inferInstanceAs
      (Decidable (resumption before = some session.place → session.executes = true →
        session.MovesOn))

/-- Instructions and a jump back to the first of them. -/
def loopOf (body : List Instruction) : BinaryProgram where
  header := { code_size := BitVec.ofNat 32 (24 * (body.length + 1)) }
  code := (InstructionEncoder.encodeProgram (body ++ [⟨.JMP, .label "LOOP", .none⟩])
    [("LOOP", 0)]).toOption.getD []

/-- A breakpoint on the first instruction of a loop stops the session there once more. -/
theorem continueExecution_at_breakpoint_loop :
    letI : LongDouble := LongDouble.x87
    ∃ events session, Run () [imageOf (loopOf [⟨.NOP, .none, .none⟩]) "loop"] {} events
        (.continueStep 0 4) session
      ∧ MoveOn events ∧ session.AtBreakpoint ∧ resumption events = some session.place := by
  let _ : LongDouble := LongDouble.x87
  let images := [imageOf (loopOf [⟨.NOP, .none, .none⟩]) "loop"]
  let commands : List (Command × ℕ) := [(.addBreakpoint 1 512, 0), (.continueExecution 5, 2),
    (.continueExecution 5, 6), (.continueExecution 5, 2)]
  have hplayed : (script () images {} commands).map (fun progress => decide
      (progress.phase = .continueStep 0 4 ∧ progress.session.place ∈ progress.session.breakpoints
        ∧ ∀ (i : ℕ) (h : i < progress.events.length),
          progress.events[i].MovesOn (progress.events.take i))) = some true := by decide +kernel
  obtain ⟨⟨events, phase, session⟩, hscript, hfacts⟩ := Option.map_eq_some_iff.mp hplayed
  obtain ⟨rfl, hplain, hclean⟩ := of_decide_eq_true hfacts
  have hrun := reached_script hscript
  exact ⟨events, session, hrun, hclean, .inl hplain,
    continueExecution_at_breakpoint hrun hclean (.inl hplain)⟩

/-- A breakpoint on an instruction that jumps to itself does not stop the session again. -/
theorem self_jump_passes_breakpoint :
    letI : LongDouble := LongDouble.x87
    ∃ events session, Run () [imageOf (loopOf []) "loop"] {} events (.continueStep 1 3) session
      ∧ session.AtBreakpoint ∧ resumption events ≠ some session.place := by
  let _ : LongDouble := LongDouble.x87
  let images := [imageOf (loopOf []) "loop"]
  let commands : List (Command × ℕ) :=
    [(.addBreakpoint 1 512, 0), (.continueExecution 5, 2), (.continueExecution 5, 4)]
  have hplayed : (script () images {} commands).map (fun progress => decide
      (progress.phase = .continueStep 1 3 ∧ progress.session.place ∈ progress.session.breakpoints
        ∧ resumption progress.events ≠ some progress.session.place)) = some true := by decide +kernel
  obtain ⟨⟨events, phase, session⟩, hscript, hfacts⟩ := Option.map_eq_some_iff.mp hplayed
  obtain ⟨rfl, hplain, hused⟩ := of_decide_eq_true hfacts
  exact ⟨events, session, reached_script hscript, .inl hplain, hused⟩

end MultiProcessDebugSession

end ZeroCpu.Debug
