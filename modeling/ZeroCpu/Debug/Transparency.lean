import ZeroCpu.Debug.Resuming
import ZeroCpu.System.IsolatedRuns

/-!
# The debugger beside the runner

Reference: `src/debug/MultiProcessDebugSession.cpp`, `src/system/MultiProcessRunner.cpp`.

A session takes its lifecycle steps one by one, in whatever order its commands ask for them. The
processes see none of it: behind `n` steps the session is where the runner is behind `n` iterations
of its loop. The two part where a lifecycle step throws, which ends a run of the runner and leaves
the session with what the step had done.
-/

namespace ZeroCpu.Debug

open Library Binary Kernel Sys Exec MultiProcessRunner

variable {H : Type}

namespace MultiProcessDebugSession

/-! ## Steps that throw -/

/-- What the lifecycle answers to a step of the session. -/
def lifecycleStep [LongDouble] (session : MultiProcessDebugSession H) :
    Except Str ProcessLifecycleStepResult := do
  let prepared ← completeAtEnd session.runtime
  (ProcessLifecycleManager.step prepared).1

/-- A step of the session throws out of the lifecycle. -/
def Throws [LongDouble] (session : MultiProcessDebugSession H) : Prop :=
  session.runtime_state = .Running ∧ ∃ message, session.lifecycleStep = .error message

/-- The event is a step that throws. -/
def Event.Throws [LongDouble] : Event H → Prop
  | .resume _ => False
  | .step session => session.Throws

/-! ## The session beside the runner -/

/-- The runner and the session have come to the same machine, processes and counts. -/
structure Mirrors (s : RunState H) (session : MultiProcessDebugSession H) : Prop where
  lifecycleSteps : s.lifecycleSteps = session.total_steps
  runtime : s.runtime = session.runtime
  runtimeState : s.runtimeState = session.runtime_state

/-- The session is where the runner is behind as many iterations as the session has taken steps. -/
def Alongside [LongDouble] (first : RunState H) (session : MultiProcessDebugSession H) : Prop :=
  ∃ s, runLoop session.total_steps first = .ok s ∧ Mirrors s session

section Keeping

variable [LongDouble] {first s : RunState H} {session session' : MultiProcessDebugSession H}

/-- Nothing but the machine and the count of steps matters. -/
theorem Alongside.congr (h : Alongside first session) (hruntime : session'.runtime = session.runtime)
    (hstate : session'.runtime_state = session.runtime_state)
    (hsteps : session'.total_steps = session.total_steps) : Alongside first session' := by
  obtain ⟨s, hloop, hmirrors⟩ := h
  refine ⟨s, hsteps ▸ hloop, ?_, ?_, ?_⟩
  · exact hmirrors.lifecycleSteps.trans hsteps.symm
  · exact hmirrors.runtime.trans hruntime.symm
  · exact hmirrors.runtimeState.trans hstate.symm

theorem Alongside.quiet (h : Alongside first session) (hquiet : Quiet session session') :
    Alongside first session' :=
  h.congr hquiet.runtime hquiet.runtime_state hquiet.total_steps

/-- A step throws exactly where the next iteration does. -/
theorem Mirrors.throws_iff (h : Mirrors s session)
    (hsettled : ProcessLifecycleManager.Settles session.runtime_state session.runtime) :
    session.Throws ↔ s.runtimeState = .Running ∧ ∃ message, iterate s = .error message := by
  rw [Throws, h.runtimeState]
  refine and_congr_right fun hrunning => ?_
  rw [iterate, h.runtime, lifecycleStep]
  cases hhas : session.runtime.table.hasRunningProcess with
  | true =>
    have hne := ProcessTable.hasRunningProcess_iff.mp hhas
    rw [reject_of_not (not_not.mpr rfl), ok_bind,
      TimerPreemptiveScheduler.runningProcessId_eq_ok.mpr ⟨hne, rfl⟩, ok_bind]
    cases completeAtEnd session.runtime with
    | error message => exact iff_of_true ⟨message, rfl⟩ ⟨message, rfl⟩
    | ok prepared =>
      rw [ok_bind, ok_bind]
      rcases ProcessLifecycleManager.step prepared with ⟨message | result, after⟩
      · exact iff_of_true ⟨message, rfl⟩ ⟨message, rfl⟩
      · apply iff_of_false
        · rintro ⟨_, ⟨⟩⟩
        · rintro ⟨_, ⟨⟩⟩
  | false =>
    -- Neither takes a step without a process on the CPU.
    refine iff_of_true ?_ ?_
    · have hprepared : completeAtEnd session.runtime = .ok session.runtime := by
        rw [completeAtEnd, reachedExecutableEnd, hhas]
        rfl
      have hstate : session.runtime.lifecycle.state = .Running := hsettled.state.trans hrunning
      rw [hprepared, ok_bind, ProcessLifecycleManager.step]
      simp only [bind_apply, get_apply, require_apply, hstate, hhas]
      cases session.runtime.lifecycle.started <;> exact ⟨_, rfl⟩
    · rw [reject_of_pos Bool.false_ne_true]
      exact ⟨_, rfl⟩

/-- A step that does not throw stays alongside the run. -/
theorem Alongside.stepProcess (h : Alongside first session)
    (hrunning : session.runtime_state = .Running) (hne : session.runtime.table.running_pid ≠ 0)
    (hreturns : ¬ session.Throws) :
    Alongside first (stepProcess session.runtime.table.running_pid session).2 := by
  obtain ⟨s, hloop, hmirrors⟩ := h
  simp only [MultiProcessDebugSession.stepProcess, bind_apply, get_apply, lift_apply, modify_apply,
    Exec.zoom_apply]
  cases hprepared : completeAtEnd session.runtime with
  | error message => exact ⟨s, hloop, hmirrors⟩
  | ok prepared =>
    dsimp only [runtimeRef]
    rcases hstep : ProcessLifecycleManager.step prepared with ⟨message | result, after⟩
    · refine absurd ⟨hrunning, message, ?_⟩ hreturns
      rw [lifecycleStep, hprepared, ok_bind, hstep]
    · dsimp only
      have hiterate : iterate s = .ok (record s session.runtime after
          session.runtime.table.running_pid result) := by
        have hhas := ProcessTable.hasRunningProcess_iff.mpr hne
        rw [iterate, hmirrors.runtime, reject_of_not (not_not.mpr hhas), ok_bind,
          TimerPreemptiveScheduler.runningProcessId_eq_ok.mpr ⟨hne, rfl⟩, ok_bind, hprepared,
          ok_bind, hstep]
      -- Both take the same record of the step.
      have hrecorded : Alongside first (recordStep session.runtime
          session.runtime.table.running_pid result { session with runtime := after }) :=
        ⟨_, runLoop_concat hloop (hmirrors.runtimeState.trans hrunning) hiterate,
          congrArg (· + 1) hmirrors.lifecycleSteps, rfl, rfl⟩
      have hquiet := keeps_refreshResumeSkip _ (Quiet.refl (recordStep session.runtime
        session.runtime.table.running_pid result { session with runtime := after }))
      generalize refreshResumeSkip (recordStep session.runtime
        session.runtime.table.running_pid result { session with runtime := after }) = refreshed
        at hquiet ⊢
      rcases refreshed with ⟨message | u, refreshed⟩ <;> exact hrecorded.quiet hquiet

/-- What a step does behind the runtime is quiet. -/
theorem quiet_stopAfterStep_stepProcess (hstep : step session
      = (MultiProcessDebugSession.stepProcess session.runtime.table.running_pid >>= stopAfterStep
        session.runtime.cpu.trace.length session.runtime.table.running_pid) session) :
    Quiet (MultiProcessDebugSession.stepProcess session.runtime.table.running_pid session).2
      (step session).2 := by
  rw [hstep, bind_apply]
  rcases MultiProcessDebugSession.stepProcess session.runtime.table.running_pid session with
    ⟨message | result, t⟩
  · exact Quiet.refl t
  · exact keeps_stopAfterStep _ _ _ t (Quiet.refl t)

/-- The table of the session is in order, and the session is alongside the runner. -/
structure Keeping (first : RunState H) (session : MultiProcessDebugSession H) : Prop where
  settled : ProcessLifecycleManager.Settles session.runtime_state session.runtime
  alongside : Alongside first session

/-- Quiet changes keep step with the run. -/
theorem Keeping.quiet (h : Keeping first session) (hquiet : Quiet session session') :
    Keeping first session' where
  settled := by
    rw [hquiet.runtime, hquiet.runtime_state]
    exact h.settled
  alongside := h.alongside.quiet hquiet

/-- Arming the skip takes no step. -/
theorem Keeping.arm (h : Keeping first session) :
    Keeping first (armResumeSkipFromLastStop session).2 := by
  simp only [armResumeSkipFromLastStop, modify_apply]
  split_ifs
  · exact ⟨h.settled, h.alongside.congr rfl rfl rfl⟩
  · exact h

/-- A step that does not throw keeps step with the run. -/
theorem Keeping.step (h : Keeping first session) (hreturns : ¬ session.Throws) :
    Keeping first (step session).2 := by
  rcases step_cases session with ⟨hquiet, -⟩ | ⟨hrunning, hne, hstep⟩
  · exact h.quiet hquiet
  · refine Keeping.quiet ⟨?_, ?_⟩ (quiet_stopAfterStep_stepProcess hstep)
    · exact (stepProcess_settles session.runtime.table.running_pid h.settled).1
    · exact h.alongside.stepProcess hrunning hne hreturns

/-! ## Runs -/

variable {host : H} {images : List ProcessImage} {options : MultiProcessDebugOptions H}
  {limit : BitVec 64} {events : List (Event H)} {phase : Phase}

/-- A new session keeps step with its run. -/
theorem keeping_new (hnew : new host images options = .ok session)
    (hboot : boot host images { runOptions options with max_lifecycle_steps := limit } = .ok first) :
    Keeping first session := by
  obtain ⟨state, hstate, hruntime, hruntimeState, hsteps, -⟩ := new_eq_ok hnew
  obtain rfl := boot_limit hstate hboot
  refine ⟨(latched_new hnew).settled, state, ?_, ?_, hruntime.symm, hruntimeState.symm⟩
  · rw [hsteps]
    rfl
  · obtain ⟨-, -, table, timer, selected, d, -, -, -, rfl⟩ := boot_eq_ok hstate
    exact hsteps.symm

/-- A session keeps step with its run until a step throws. -/
theorem Run.keeping (h : Run host images options events phase session)
    (hboot : boot host images { runOptions options with max_lifecycle_steps := limit } = .ok first)
    (hreturns : ∀ event ∈ events, ¬ event.Throws) : Keeping first session := by
  induction h with
  | created hnew => exact keeping_new hnew hboot
  | command hrun command ih =>
    exact (ih hreturns).quiet (keeps_start command _ (Quiet.refl _))
  | @advance events phase session hrun ih =>
    obtain ⟨hbefore, hlast⟩ := List.forall_mem_append.mp hreturns
    refine holds_advance Keeping.quiet (fun _ => ih hbefore) (fun _ => (ih hbefore).arm)
      fun hevents => ?_
    rw [hevents] at hlast
    exact (ih hbefore).step (hlast _ List.mem_cons_self)

/-! ## The theorem -/

/-- As long as no step has thrown, a session that has taken `n` lifecycle steps is where the runner is
behind `n` iterations, whatever its commands were, and its next step throws where the next iteration
does. -/
theorem debugger_transparent
    (hboot : boot host images { runOptions options with max_lifecycle_steps := limit } = .ok first)
    (h : Run host images options events phase session) (hreturns : ∀ event ∈ events, ¬ event.Throws) :
    ∃ s, runLoop session.total_steps first = .ok s ∧ Mirrors s session
      ∧ (session.Throws ↔ s.runtimeState = .Running ∧ ∃ message, iterate s = .error message) := by
  obtain ⟨hsettled, s, hloop, hmirrors⟩ := h.keeping hboot hreturns
  exact ⟨s, hloop, hmirrors, hmirrors.throws_iff hsettled⟩

end Keeping

instance {ε α : Type} (r : Except ε α) : Decidable (∃ e, r = .error e) :=
  match r with
  | .ok _ => .isFalse nofun
  | .error e => .isTrue ⟨e, rfl⟩

instance [LongDouble] (session : MultiProcessDebugSession H) : Decidable session.Throws :=
  inferInstanceAs (Decidable (_ ∧ _))

instance [LongDouble] (event : Event H) : Decidable event.Throws :=
  match event with
  | .resume _ => .isFalse not_false
  | .step session => inferInstanceAs (Decidable session.Throws)

/-- Two loops, a breakpoint in the second, a run to it, and single steps. -/
theorem debugger_transparent_loops :
    letI : LongDouble := LongDouble.x87
    let images := [imageOf (loopOf [⟨.NOP, .none, .none⟩]) "first", imageOf (loopOf []) "second"]
    ∃ first events session,
      boot () images { runOptions {} with max_lifecycle_steps := 100 } = .ok first
        ∧ Run () images {} events .idle session ∧ session.total_steps = 4
        ∧ ∃ s, runLoop 4 first = .ok s ∧ Mirrors s session
          ∧ (session.Throws ↔ s.runtimeState = .Running ∧ ∃ message, iterate s = .error message) := by
  let _ : LongDouble := LongDouble.x87
  intro images
  let commands : List (Command × ℕ) := [(.addBreakpoint 2 512, 0), (.step, 1),
    (.continueExecution 9, 4), (.step, 1), (.selectProcess 1, 0), (.step, 1)]
  -- The commands are played once; the theorem is applied to the run they give.
  have hplayed : (script () images {} commands).map (fun progress => decide
      (progress.phase = .idle ∧ progress.session.total_steps = 4
        ∧ ∀ event ∈ progress.events, ¬ event.Throws)) = some true := by decide +kernel
  obtain ⟨⟨events, phase, session⟩, hscript, hfacts⟩ := Option.map_eq_some_iff.mp hplayed
  obtain ⟨rfl, hsteps, hreturns⟩ := of_decide_eq_true hfacts
  cases hboot : boot () images { runOptions {} with max_lifecycle_steps := 100 } with
  | error message =>
    have hok : (boot () images { runOptions {} with max_lifecycle_steps := 100 }).toOption.isSome
        = true := by decide +kernel
    rw [hboot] at hok
    cases hok
  | ok first =>
    have hrun := reached_script hscript
    have htransparent := debugger_transparent hboot hrun hreturns
    rw [hsteps] at htransparent
    exact ⟨first, events, session, rfl, hrun, hsteps, htransparent⟩

/-- The system calls of `syscallOptions`, under the debugger. -/
def lastCallOptions : MultiProcessDebugOptions ZeroFS where
  quantum := 100
  software_interrupt_handler := syscallOptions.software_interrupt_handler

/-- A step that throws counts for nothing and leaves the stack of the process moved. -/
theorem not_debugger_transparent :
    letI : LongDouble := LongDouble.x87
    ¬ ∀ (host : ZeroFS) (images : List ProcessImage) (options : MultiProcessDebugOptions ZeroFS)
        (limit : BitVec 64) (first : RunState ZeroFS) (events : List (Event ZeroFS)) (phase : Phase)
        (session : MultiProcessDebugSession ZeroFS),
      boot host images { runOptions options with max_lifecycle_steps := limit } = .ok first →
      Run host images options events phase session →
        ∃ s, runLoop session.total_steps first = .ok s ∧ Mirrors s session := by
  let _ : LongDouble := LongDouble.x87
  intro h
  have hplayed : (script freshFilesystem [lastCallImage] lastCallOptions [(.step, 1)]).map
      (fun progress => decide (progress.session.total_steps = 0
          ∧ progress.session.runtime.cpu.core.state.sp = 4032)) = some true := by decide +kernel
  have hbooted : (boot freshFilesystem [lastCallImage] { runOptions lastCallOptions with
      max_lifecycle_steps := 10 }).toOption.map (fun s => decide
        (s.runtime.cpu.core.state.sp = 2048)) = some true := by decide +kernel
  obtain ⟨⟨events, phase, session⟩, hscript, hfacts⟩ := Option.map_eq_some_iff.mp hplayed
  obtain ⟨hsteps, hleft⟩ := of_decide_eq_true hfacts
  cases hboot : boot freshFilesystem [lastCallImage] { runOptions lastCallOptions with
      max_lifecycle_steps := 10 } with
  | error message =>
    rw [hboot] at hbooted
    cases hbooted
  | ok first =>
    obtain ⟨s, hloop, hmirrors⟩ := h _ _ _ _ first _ _ session hboot (reached_script hscript)
    rw [hsteps] at hloop
    obtain rfl := Except.ok.inj hloop
    rw [hboot] at hbooted
    have hsame : (2048 : ℕ) = 4032 := by
      rw [← hleft, ← hmirrors.runtime]
      exact (of_decide_eq_true (Option.some.inj hbooted)).symm
    exact absurd hsame (by decide)

end MultiProcessDebugSession

end ZeroCpu.Debug
