import ZeroCpu.Debug.MultiProcess
import ZeroCpu.Kernel.LiveState
import ZeroCpu.System.Rounds

/-!
# Runs of a multi-process session

Reference: `src/debug/MultiProcessDebugSession.cpp`.

A run is what any commands, in any order, do to a session, taken apart at the points where execution
resumes and where a lifecycle step is taken. A command that throws ends where it threw, and the run
goes on with the next one.
-/

namespace ZeroCpu.Debug

open Library Binary Kernel Sys Exec

variable {H : Type}

namespace MultiProcessDebugSession

/-! ## Commands -/

/-- The public methods that change a session. -/
inductive Command where
  | selectProcess (pid : ProcessId)
  | loadSymbolsFile (pid : ProcessId) (path text : Str)
  | addBreakpoint (pid : ProcessId) (address : ℕ)
  | removeBreakpoint (pid : ProcessId) (address : ℕ)
  | clearBreakpoints
  | clearBreakpointsOf (pid : ProcessId)
  | addConditionalBreakpoint (pid : ProcessId) (address : ℕ) (condition : DebugCondition)
  | removeConditionalBreakpoint (id : ℕ)
  | clearConditionalBreakpoints
  | clearConditionalBreakpointsOf (pid : ProcessId)
  | addWatchpoint (pid : ProcessId) (address size : ℕ) (mode : ProcessMemoryWatchMode)
  | removeWatchpoint (id : ℕ)
  | clearWatchpoints
  | clearWatchpointsOf (pid : ProcessId)
  | step
  | stepSelectedSourceLine (maxSteps : ℕ)
  | continueExecution (maxSteps : ℕ)

/-- Where a session is: between two commands, or inside one, about to arm the skip or to take a step
or at the top of a loop. -/
inductive Phase where
  | idle
  | arming (next : Phase)
  | stepping
  | continuing (executedSteps remaining : ℕ)
  | continueStep (executedSteps remaining : ℕ)
  | sourceStepping (start : SourceStart) (progress : SourceProgress) (executedSteps remaining : ℕ)
  | sourceStep (start : SourceStart) (executedSteps remaining : ℕ)
deriving DecidableEq

/-- A call that is over in one go. -/
def call {α : Type} (m : Method H α) : Method H Phase := do
  let _ ← m
  pure .idle

/-- The phase that a check leads to, unless it stops the command. -/
def unlessOver (check : Method H (Option MultiProcessDebugStop)) (next : Method H Phase) :
    Method H Phase := do
  match ← check with
  | some _ => pure .idle
  | none => next

/-- The start of a command. -/
def Command.start : Command → Method H Phase
  | .selectProcess pid => call (MultiProcessDebugSession.selectProcess pid)
  | .loadSymbolsFile pid path text => call (MultiProcessDebugSession.loadSymbolsFile pid path text)
  | .addBreakpoint pid address => call (MultiProcessDebugSession.addBreakpoint pid address)
  | .removeBreakpoint pid address => call (MultiProcessDebugSession.removeBreakpoint pid address)
  | .clearBreakpoints => call MultiProcessDebugSession.clearBreakpoints
  | .clearBreakpointsOf pid => call (MultiProcessDebugSession.clearBreakpointsOf pid)
  | .addConditionalBreakpoint pid address condition =>
      call (MultiProcessDebugSession.addConditionalBreakpoint pid address condition)
  | .removeConditionalBreakpoint id =>
      call (MultiProcessDebugSession.removeConditionalBreakpoint id)
  | .clearConditionalBreakpoints => call MultiProcessDebugSession.clearConditionalBreakpoints
  | .clearConditionalBreakpointsOf pid =>
      call (MultiProcessDebugSession.clearConditionalBreakpointsOf pid)
  | .addWatchpoint pid address size mode =>
      call (MultiProcessDebugSession.addWatchpoint pid address size mode)
  | .removeWatchpoint id => call (MultiProcessDebugSession.removeWatchpoint id)
  | .clearWatchpoints => call MultiProcessDebugSession.clearWatchpoints
  | .clearWatchpointsOf pid => call (MultiProcessDebugSession.clearWatchpointsOf pid)
  | .step => pure .stepping
  | .stepSelectedSourceLine maxSteps => do
      match ← findSourceStart maxSteps with
      | .inl _ => pure .idle
      | .inr start => pure (.arming (.sourceStepping start ⟨true, false⟩ 0 maxSteps))
  | .continueExecution maxSteps => unlessOver (stopBeforeContinue maxSteps) <|
      pure (.arming (.continuing 0 maxSteps))

/-- What comes next inside a command. -/
def Phase.advance [LongDouble] : Phase → Method H Phase
  | .idle => pure .idle
  | .arming next => do
      armResumeSkipFromLastStop
      pure next
  | .stepping => call MultiProcessDebugSession.step
  | .continuing executedSteps 0 =>
      call (makeStop .StepLimit executedSteps "Multi-process debugger continue step limit reached")
  | .continuing executedSteps (remaining + 1) => unlessOver (stopBeforeStep executedSteps) <|
      pure (.continueStep executedSteps remaining)
  | .continueStep executedSteps remaining => unlessOver (stopAtStep executedSteps) <|
      pure (.continuing (executedSteps + 1) remaining)
  | .sourceStepping start progress executedSteps 0 =>
      call (sourceLineLoop start progress executedSteps 0)
  | .sourceStepping start progress executedSteps (remaining + 1) =>
      unlessOver (stopBeforeSourceStep start progress executedSteps (remaining + 1)) <|
        pure (.sourceStep start executedSteps remaining)
  | .sourceStep start executedSteps remaining => unlessOver (stopAtStep executedSteps) do
      let progress ← MultiProcessDebugSession.sourceProgress start
      pure (.sourceStepping start progress (executedSteps + 1) remaining)

/-- Where a phase leaves off: a throw ends the command. -/
def phaseAfter : Except Str Phase → Phase
  | .ok phase => phase
  | .error _ => .idle

/-- What a run goes through, next to the session that it starts from. -/
inductive Event (H : Type) where
  /-- Execution resumes, from the last stop. -/
  | resume (session : MultiProcessDebugSession H)
  /-- A step is taken. -/
  | step (session : MultiProcessDebugSession H)

/-- What the next part of a method does to the session. -/
def Phase.events (session : MultiProcessDebugSession H) : Phase → List (Event H)
  | .arming _ => [.resume session]
  | .stepping => [.step session]
  | .continueStep _ _ => [.step session]
  | .sourceStep _ _ _ => [.step session]
  | _ => []

/-- A new session of the images, after the events and in the phase that any commands lead to. -/
inductive Run [LongDouble] (host : H) (images : List ProcessImage)
    (options : MultiProcessDebugOptions H) :
    List (Event H) → Phase → MultiProcessDebugSession H → Prop
  | created {session : MultiProcessDebugSession H} (h : new host images options = .ok session) :
      Run host images options [] .idle session
  | command {events : List (Event H)} {session : MultiProcessDebugSession H}
      (h : Run host images options events .idle session) (command : Command) :
      Run host images options events (phaseAfter (command.start session).1) (command.start session).2
  | advance {events : List (Event H)} {phase : Phase} {session : MultiProcessDebugSession H}
      (h : Run host images options events phase session) :
      Run host images options (events ++ phase.events session)
        (phaseAfter (phase.advance session).1) (phase.advance session).2

/-! ## The methods follow the phases -/

/-- A call ends idle, whether it returns or throws. -/
theorem call_idle {α : Type} (m : Method H α) (s : MultiProcessDebugSession H) :
    phaseAfter (call m s).1 = .idle ∧ (call m s).2 = (m s).2 := by
  rw [call, bind_apply]
  rcases m s with ⟨e | a, t⟩ <;> exact ⟨rfl, rfl⟩

section Follows

variable [LongDouble] {host : H} {images : List ProcessImage} {options : MultiProcessDebugOptions H}

/-- From this phase a run can go on to what the method leaves. -/
def Follows (host : H) (images : List ProcessImage) (options : MultiProcessDebugOptions H)
    (phase : Phase) {α : Type} (method : Method H α) : Prop :=
  ∀ events session, Run host images options events phase session →
    ∃ later, Run host images options (events ++ later) .idle (method session).2

/-- A phase that is one call follows its method. -/
theorem follows_call {phase : Phase} {α : Type} {method : Method H α}
    (hadvance : phase.advance = call method) : Follows host images options phase method := by
  intro events session h
  have hrun := h.advance
  rw [hadvance, (call_idle method session).1, (call_idle method session).2] at hrun
  exact ⟨_, hrun⟩

/-- A check that stops the method stops the command. -/
theorem follows_unlessStopped {phase : Phase} {check : Method H (Option MultiProcessDebugStop)}
    {next : Method H Phase} {method : Method H MultiProcessDebugStop}
    (hadvance : phase.advance = unlessOver check next)
    (hnext : ∀ events t, Run host images options events (phaseAfter (next t).1) (next t).2 →
      ∃ later, Run host images options (events ++ later) .idle (method t).2) :
    Follows host images options phase (unlessStopped check method) := by
  intro events session h
  have hrun := h.advance
  rw [hadvance] at hrun
  simp only [unlessOver, unlessStopped, bind_apply] at hrun ⊢
  generalize check session = out at hrun ⊢
  rcases out with ⟨e | stop, t⟩
  · exact ⟨_, hrun⟩
  · cases stop with
    | some stop => exact ⟨_, hrun⟩
    | none =>
      obtain ⟨later, hlater⟩ := hnext _ t hrun
      exact ⟨phase.events session ++ later, by rwa [← List.append_assoc]⟩

/-- The loop of continue follows its phases. -/
theorem follows_continueLoop (executedSteps remaining : ℕ) :
    Follows host images options (.continuing executedSteps remaining)
      (continueLoop executedSteps remaining) := by
  induction remaining generalizing executedSteps with
  | zero => exact follows_call rfl
  | succ remaining ih =>
    refine follows_unlessStopped rfl ?_
    show Follows host images options (.continueStep executedSteps remaining) _
    refine follows_unlessStopped rfl ?_
    exact ih (executedSteps + 1)

/-- The loop of a source step follows its phases. -/
theorem follows_sourceLineLoop (start : SourceStart) (progress : SourceProgress)
    (executedSteps remaining : ℕ) :
    Follows host images options (.sourceStepping start progress executedSteps remaining)
      (sourceLineLoop start progress executedSteps remaining) := by
  induction remaining generalizing progress executedSteps with
  | zero => exact follows_call rfl
  | succ remaining ih =>
    refine follows_unlessStopped rfl ?_
    show Follows host images options (.sourceStep start executedSteps remaining) _
    refine follows_unlessStopped rfl ?_
    intro events t h
    rw [bind_apply] at h ⊢
    generalize sourceProgress start t = out at h ⊢
    rcases out with ⟨e | progress', u⟩
    · exact ⟨[], by rwa [List.append_nil]⟩
    · exact ih progress' (executedSteps + 1) events u h

/-- Arming the skip goes ahead of a loop. -/
theorem follows_arming {next : Phase} {method : Method H MultiProcessDebugStop}
    (hnext : Follows host images options next method) :
    Follows host images options (.arming next) (do armResumeSkipFromLastStop; method) := by
  intro events session h
  obtain ⟨later, hlater⟩ := hnext _ _ h.advance
  exact ⟨[.resume session] ++ later, by rwa [← List.append_assoc]⟩

/-! What the commands that take steps leave is reached in a run. -/

/-- A run goes on with a step. -/
theorem Run.step {events : List (Event H)} {session : MultiProcessDebugSession H}
    (h : Run host images options events .idle session) :
    ∃ later, Run host images options (events ++ later) .idle
      (MultiProcessDebugSession.step session).2 :=
  (follows_call rfl : Follows host images options .stepping _) events session (h.command .step)

/-- A run goes on with a continue. -/
theorem Run.continueExecution {events : List (Event H)} {session : MultiProcessDebugSession H}
    (h : Run host images options events .idle session) (maxSteps : ℕ) :
    ∃ later, Run host images options (events ++ later) .idle
      (MultiProcessDebugSession.continueExecution maxSteps session).2 := by
  have hrun := h.command (.continueExecution maxSteps)
  simp only [Command.start, unlessOver, MultiProcessDebugSession.continueExecution, unlessStopped,
    bind_apply] at hrun ⊢
  generalize stopBeforeContinue maxSteps session = out at hrun ⊢
  rcases out with ⟨e | stop, t⟩
  · exact ⟨[], by rwa [List.append_nil]⟩
  · cases stop with
    | some stop => exact ⟨[], by rwa [List.append_nil]⟩
    | none => exact follows_arming (follows_continueLoop 0 maxSteps) events t hrun

/-- A run goes on with a source step. -/
theorem Run.stepSelectedSourceLine {events : List (Event H)} {session : MultiProcessDebugSession H}
    (h : Run host images options events .idle session) (maxSteps : ℕ) :
    ∃ later, Run host images options (events ++ later) .idle
      (MultiProcessDebugSession.stepSelectedSourceLine maxSteps session).2 := by
  have hrun := h.command (.stepSelectedSourceLine maxSteps)
  simp only [Command.start, MultiProcessDebugSession.stepSelectedSourceLine, bind_apply] at hrun ⊢
  generalize findSourceStart maxSteps session = out at hrun ⊢
  rcases out with ⟨e | stop | start, t⟩
  · exact ⟨[], by rwa [List.append_nil]⟩
  · exact ⟨[], by rwa [List.append_nil]⟩
  · exact follows_arming (follows_sourceLineLoop start ⟨true, false⟩ 0 maxSteps) events t hrun

end Follows

/-! ## What commands leave alone -/

/-- The runtime is the same, and the skip is no other, though it may have been switched off. -/
structure Quiet (session session' : MultiProcessDebugSession H) : Prop where
  runtime : session'.runtime = session.runtime
  runtime_state : session'.runtime_state = session.runtime_state
  total_steps : session'.total_steps = session.total_steps
  skip : session'.resume_skip_active = true → session.resume_skip_active = true
    ∧ session'.resume_skip_pid = session.resume_skip_pid
    ∧ session'.resume_skip_address = session.resume_skip_address

variable {s t u : MultiProcessDebugSession H}

theorem Quiet.refl (s : MultiProcessDebugSession H) : Quiet s s :=
  ⟨rfl, rfl, rfl, fun h => ⟨h, rfl, rfl⟩⟩

/-- Quiet changes follow each other. -/
theorem Quiet.trans (h : Quiet s t) (h' : Quiet t u) : Quiet s u where
  runtime := h'.runtime.trans h.runtime
  runtime_state := h'.runtime_state.trans h.runtime_state
  total_steps := h'.total_steps.trans h.total_steps
  skip hactive := by
    obtain ⟨hactive', hpid', haddress'⟩ := h'.skip hactive
    obtain ⟨hactive'', hpid, haddress⟩ := h.skip hactive'
    exact ⟨hactive'', hpid'.trans hpid, haddress'.trans haddress⟩

theorem keeps_modify {f : MultiProcessDebugSession H → MultiProcessDebugSession H}
    (h : ∀ t, Quiet t (f t)) : Keeps (Quiet s) (Exec.modify f : Method H Unit) :=
  Keeps.modify fun t ht => ht.trans (h t)

theorem keeps_map {α β : Type} {f : α → β} {m : Method H α} (h : Keeps (Quiet s) m) :
    Keeps (Quiet s) (f <$> m) := h.bind fun _ => Keeps.pure _

theorem keeps_requireStarted : Keeps (Quiet s) requireStarted :=
  Keeps.get.bind fun _ => Keeps.require _ _

/-- Stops change nothing but the last stop. -/
theorem keeps_reportStop (stop : MultiProcessDebugStop) : Keeps (Quiet s) (reportStop stop) := by
  refine Keeps.bind (keeps_modify fun t => ?_) fun _ => Keeps.pure _
  exact ⟨rfl, rfl, rfl, fun h => ⟨h, rfl, rfl⟩⟩

theorem keeps_makeStop (reason : MultiProcessDebugStopReason) (executedSteps : ℕ) (message : Str) :
    Keeps (Quiet s) (makeStop reason executedSteps message) :=
  Keeps.get.bind fun _ => keeps_reportStop _

/-- Making the last stop is quiet. -/
theorem keeps_makeTerminalStop (executedSteps : ℕ) :
    Keeps (Quiet s) (makeTerminalStop executedSteps) := by
  refine Keeps.get.bind fun session => ?_
  cases session.runtime_state <;> exact keeps_makeStop _ _ _

/-- The checks after a step are quiet. -/
theorem keeps_stopAfterStep (traceSizeBefore : ℕ) (before : ProcessId)
    (result : ProcessLifecycleStepResult) :
    Keeps (Quiet s) (stopAfterStep traceSizeBefore before result) := by
  rw [stopAfterStep]
  split
  · exact Keeps.get.bind fun _ => (Keeps.lift _).bind fun _ =>
      (keeps_makeStop _ _ _).bind fun _ => keeps_reportStop _
  · refine Keeps.get.bind fun session => ?_
    dsimp only
    split
    · exact (keeps_makeStop _ _ _).bind fun _ => keeps_reportStop _
    · split
      · exact keeps_makeTerminalStop _
      · exact keeps_makeStop _ _ _

/-- Refreshing the breakpoint to skip is quiet. -/
theorem keeps_refreshResumeSkip : Keeps (Quiet s) refreshResumeSkip := by
  have hoff : ∀ t : MultiProcessDebugSession H, Quiet t { t with resume_skip_active := false } :=
    fun t => ⟨rfl, rfl, rfl, nofun⟩
  refine Keeps.get.bind fun session => ?_
  split
  · exact Keeps.pure _
  · split
    · exact keeps_modify hoff
    · refine (Keeps.lift _).bind fun snapshot => ?_
      split
      · exact keeps_modify hoff
      · exact Keeps.pure _

/-- The check for breakpoints is quiet. -/
theorem keeps_stopAtBreakpoint (executedSteps : ℕ) (skip : ProcessId → ℕ → Bool) :
    Keeps (Quiet s) (stopAtBreakpoint executedSteps skip) := by
  refine keeps_refreshResumeSkip.bind fun _ => Keeps.get.bind fun session => ?_
  refine (Keeps.lift _).bind fun pid => ?_
  dsimp only
  split
  · exact Keeps.pure _
  · split
    · exact keeps_map ((keeps_makeStop _ _ _).bind fun _ => keeps_reportStop _)
    · refine (Keeps.lift _).bind fun hit => ?_
      split
      · exact keeps_map ((keeps_makeStop _ _ _).bind fun _ => keeps_reportStop _)
      · exact Keeps.pure _

/-- The checks before a step are quiet. -/
theorem keeps_stopBeforeStep (executedSteps : ℕ) : Keeps (Quiet s) (stopBeforeStep executedSteps) := by
  refine Keeps.get.bind fun session => ?_
  split
  · exact keeps_map (keeps_makeTerminalStop _)
  · exact keeps_stopAtBreakpoint _ _

/-- The checks before a source step are quiet. -/
theorem keeps_stopBeforeSourceStep (start : SourceStart) (progress : SourceProgress)
    (executedSteps remaining : ℕ) :
    Keeps (Quiet s) (stopBeforeSourceStep start progress executedSteps remaining) := by
  refine Keeps.get.bind fun session => ?_
  split
  · exact keeps_map (keeps_makeTerminalStop _)
  · refine (keeps_stopAtBreakpoint _ _).bind fun hit => ?_
    split
    · exact Keeps.pure _
    · split
      · exact keeps_map (keeps_makeStop _ _ _)
      · split
        · exact keeps_map (keeps_makeStop _ _ _)
        · exact Keeps.pure _

/-- Finding the start of a source step is quiet. -/
theorem keeps_findSourceStart (maxSteps : ℕ) : Keeps (Quiet s) (findSourceStart maxSteps) := by
  refine keeps_requireStarted.bind fun _ => (Keeps.require _ _).bind fun _ => ?_
  refine Keeps.get.bind fun session => ?_
  split
  · exact keeps_map (keeps_makeTerminalStop _)
  · refine (Keeps.require _ _).bind fun _ => (Keeps.lift _).bind fun initial => ?_
    refine (Keeps.require _ _).bind fun _ => (Keeps.require _ _).bind fun _ => ?_
    split
    · exact Keeps.throw _
    · exact Keeps.pure _

/-- The checks before a continue are quiet. -/
theorem keeps_stopBeforeContinue (maxSteps : ℕ) :
    Keeps (Quiet s) (stopBeforeContinue maxSteps) := by
  refine keeps_requireStarted.bind fun _ => (Keeps.require _ _).bind fun _ => ?_
  refine Keeps.get.bind fun session => ?_
  split
  · exact keeps_map (keeps_makeTerminalStop _)
  · exact Keeps.pure _

theorem keeps_call {α : Type} {m : Method H α} (h : Keeps (Quiet s) m) : Keeps (Quiet s) (call m) :=
  h.bind fun _ => Keeps.pure _

/-- A check and what follows it are quiet when both are. -/
theorem keeps_unlessOver {check : Method H (Option MultiProcessDebugStop)} {next : Method H Phase}
    (hcheck : Keeps (Quiet s) check) (hnext : Keeps (Quiet s) next) :
    Keeps (Quiet s) (unlessOver check next) := by
  refine hcheck.bind fun stop => ?_
  cases stop with
  | some stop => exact Keeps.pure _
  | none => exact hnext

/-- Settings besides the skip. -/
theorem keeps_settings {f : MultiProcessDebugSession H → MultiProcessDebugSession H}
    (h : ∀ t, (f t).runtime = t.runtime ∧ (f t).runtime_state = t.runtime_state
      ∧ (f t).total_steps = t.total_steps ∧ (f t).resume_skip_active = t.resume_skip_active
      ∧ (f t).resume_skip_pid = t.resume_skip_pid
      ∧ (f t).resume_skip_address = t.resume_skip_address) :
    Keeps (Quiet s) (Exec.modify f : Method H Unit) :=
  keeps_modify fun t => by
    obtain ⟨hruntime, hstate, hsteps, hactive, hpid, haddress⟩ := h t
    exact ⟨hruntime, hstate, hsteps, fun h => ⟨hactive.symm.trans h, hpid, haddress⟩⟩

/-- Until a command takes a step or arms the skip it is quiet. -/
theorem keeps_start (command : Command) : Keeps (Quiet s) (command.start (H := H)) := by
  cases command with
  -- A command that is not a step assigns at most the session's own settings, and a run has not
  -- executed anything yet.
  | step => exact Keeps.pure _
  | continueExecution maxSteps =>
    exact keeps_unlessOver (keeps_stopBeforeContinue maxSteps) (Keeps.pure _)
  | stepSelectedSourceLine maxSteps =>
    refine (keeps_findSourceStart maxSteps).bind fun found => ?_
    cases found with
    | inl stop => exact Keeps.pure _
    | inr start => exact Keeps.pure _
  | addConditionalBreakpoint pid address condition =>
    refine keeps_call (keeps_requireStarted.bind fun _ => Keeps.get.bind fun session => ?_)
    refine (Keeps.lift _).bind fun _ => (Keeps.lift _).bind fun _ => ?_
    dsimp only
    split
    · exact Keeps.pure _
    · refine (Keeps.require _ _).bind fun _ => Keeps.bind ?_ fun _ => Keeps.pure _
      exact keeps_settings fun _ => ⟨rfl, rfl, rfl, rfl, rfl, rfl⟩
  | addWatchpoint pid address size mode =>
    refine keeps_call (keeps_requireStarted.bind fun _ => Keeps.get.bind fun session => ?_)
    refine (Keeps.lift _).bind fun _ => ?_
    dsimp only
    split
    · exact Keeps.pure _
    · refine (Keeps.require _ _).bind fun _ => Keeps.bind ?_ fun _ => Keeps.pure _
      exact keeps_settings fun _ => ⟨rfl, rfl, rfl, rfl, rfl, rfl⟩
  | selectProcess pid =>
    refine keeps_call (keeps_requireStarted.bind fun _ => Keeps.get.bind fun _ => ?_)
    exact (Keeps.lift _).bind fun _ => keeps_settings fun _ => ⟨rfl, rfl, rfl, rfl, rfl, rfl⟩
  | loadSymbolsFile pid path text =>
    refine keeps_call (keeps_requireStarted.bind fun _ => Keeps.get.bind fun _ => ?_)
    refine (Keeps.lift _).bind fun _ => (Keeps.lift _).bind fun _ => ?_
    exact keeps_settings fun _ => ⟨rfl, rfl, rfl, rfl, rfl, rfl⟩
  | addBreakpoint pid address =>
    refine keeps_call (keeps_requireStarted.bind fun _ => Keeps.get.bind fun _ => ?_)
    refine (Keeps.lift _).bind fun _ => Keeps.bind ?_ fun _ => Keeps.pure _
    exact keeps_settings fun _ => ⟨rfl, rfl, rfl, rfl, rfl, rfl⟩
  | removeBreakpoint pid address =>
    refine keeps_call (keeps_requireStarted.bind fun _ => Keeps.get.bind fun _ => ?_)
    refine Keeps.bind ?_ fun _ => Keeps.pure _
    exact keeps_settings fun _ => ⟨rfl, rfl, rfl, rfl, rfl, rfl⟩
  | removeConditionalBreakpoint id =>
    refine keeps_call (keeps_requireStarted.bind fun _ => Keeps.get.bind fun _ => ?_)
    refine Keeps.bind ?_ fun _ => Keeps.pure _
    exact keeps_settings fun _ => ⟨rfl, rfl, rfl, rfl, rfl, rfl⟩
  | removeWatchpoint id =>
    refine keeps_call (keeps_requireStarted.bind fun _ => Keeps.get.bind fun _ => ?_)
    refine Keeps.bind ?_ fun _ => Keeps.pure _
    exact keeps_settings fun _ => ⟨rfl, rfl, rfl, rfl, rfl, rfl⟩
  | clearBreakpoints =>
    refine keeps_call (keeps_requireStarted.bind fun _ => ?_)
    exact keeps_settings fun _ => ⟨rfl, rfl, rfl, rfl, rfl, rfl⟩
  | clearConditionalBreakpoints =>
    refine keeps_call (keeps_requireStarted.bind fun _ => ?_)
    exact keeps_settings fun _ => ⟨rfl, rfl, rfl, rfl, rfl, rfl⟩
  | clearWatchpoints =>
    refine keeps_call (keeps_requireStarted.bind fun _ => ?_)
    exact keeps_settings fun _ => ⟨rfl, rfl, rfl, rfl, rfl, rfl⟩
  | clearBreakpointsOf pid =>
    refine keeps_call (keeps_requireStarted.bind fun _ => Keeps.get.bind fun _ => ?_)
    exact (Keeps.lift _).bind fun _ => keeps_settings fun _ => ⟨rfl, rfl, rfl, rfl, rfl, rfl⟩
  | clearConditionalBreakpointsOf pid =>
    refine keeps_call (keeps_requireStarted.bind fun _ => Keeps.get.bind fun _ => ?_)
    exact (Keeps.lift _).bind fun _ => keeps_settings fun _ => ⟨rfl, rfl, rfl, rfl, rfl, rfl⟩
  | clearWatchpointsOf pid =>
    refine keeps_call (keeps_requireStarted.bind fun _ => Keeps.get.bind fun _ => ?_)
    exact (Keeps.lift _).bind fun _ => keeps_settings fun _ => ⟨rfl, rfl, rfl, rfl, rfl, rfl⟩

/-! ## Parts of commands -/

/-- Behind its step or its arming a part of a command is quiet. -/
theorem holds_unlessOver {P : MultiProcessDebugSession H → Prop}
    (hP : ∀ {s t : MultiProcessDebugSession H}, P s → Quiet s t → P t)
    {check : Method H (Option MultiProcessDebugStop)} {next : Method H Phase}
    {session : MultiProcessDebugSession H} (hcheck : P (check session).2)
    (hnext : ∀ s : MultiProcessDebugSession H, Keeps (Quiet s) next) :
    P (unlessOver check next session).2 := by
  rw [unlessOver, bind_apply]
  generalize check session = out at hcheck ⊢
  rcases out with ⟨message | stop, t⟩
  · exact hcheck
  · cases stop with
    | some stop => exact hcheck
    | none => exact hP hcheck (hnext t t (Quiet.refl t))

/-- What holds after the step holds after the checks behind it. -/
theorem holds_stopAtStep [LongDouble] {P : MultiProcessDebugSession H → Prop}
    (hP : ∀ {s t : MultiProcessDebugSession H}, P s → Quiet s t → P t) {executedSteps : ℕ}
    {session : MultiProcessDebugSession H} (h : P (MultiProcessDebugSession.step session).2) :
    P (stopAtStep executedSteps session).2 := by
  rw [stopAtStep, bind_apply]
  generalize MultiProcessDebugSession.step session = out at h ⊢
  rcases out with ⟨message | stop, t⟩
  · exact h
  · dsimp only
    split_ifs
    · exact hP h (keeps_map (keeps_reportStop _) t (Quiet.refl t))
    · exact h

/-- What quiet methods keep holds behind a phase, where it holds behind its event. -/
theorem holds_advance [LongDouble] {P : MultiProcessDebugSession H → Prop}
    (hP : ∀ {s t : MultiProcessDebugSession H}, P s → Quiet s t → P t) {phase : Phase}
    {session : MultiProcessDebugSession H} (hidle : phase.events session = [] → P session)
    (harm : phase.events session = [.resume session] → P (armResumeSkipFromLastStop session).2)
    (hstep : phase.events session = [.step session] → P (MultiProcessDebugSession.step session).2) :
    P (phase.advance session).2 := by
  -- Between steps a command changes its own bookkeeping only.
  have hquiet : ∀ {α : Type} {m : Method H α}, phase.events session = [] →
      (∀ s : MultiProcessDebugSession H, Keeps (Quiet s) m) → P (m session).2 :=
    fun hevents hm => hP (hidle hevents) (hm session session (Quiet.refl session))
  cases phase with
  | idle => exact hidle rfl
  | arming next => exact harm rfl
  | stepping =>
    rw [Phase.advance, (call_idle _ session).2]
    exact hstep rfl
  | continuing executedSteps remaining =>
    cases remaining with
    | zero => exact hquiet rfl fun _ => keeps_call (keeps_makeStop _ _ _)
    | succ remaining =>
      exact hquiet rfl fun _ => keeps_unlessOver (keeps_stopBeforeStep _) (Keeps.pure _)
  | continueStep executedSteps remaining =>
    exact holds_unlessOver hP (holds_stopAtStep hP (hstep rfl)) fun _ => Keeps.pure _
  | sourceStepping start progress executedSteps remaining =>
    cases remaining with
    | zero =>
      refine hquiet rfl fun _ => keeps_call ((keeps_stopBeforeSourceStep _ _ _ _).bind fun stop => ?_)
      cases stop with
      | some stop => exact Keeps.pure _
      | none => exact Keeps.gets _
    | succ remaining =>
      exact hquiet rfl fun _ => keeps_unlessOver (keeps_stopBeforeSourceStep _ _ _ _) (Keeps.pure _)
  | sourceStep start executedSteps remaining =>
    refine holds_unlessOver hP (holds_stopAtStep hP (hstep rfl)) fun _ => ?_
    exact (Keeps.get.bind fun _ => (Keeps.lift _).bind fun _ => Keeps.pure _).bind fun _ =>
      Keeps.pure _

/-! ## New sessions -/

/-- A new session starts like the runner, with no skip armed. -/
theorem new_eq_ok {host : H} {images : List ProcessImage} {options : MultiProcessDebugOptions H}
    {session : MultiProcessDebugSession H} (h : new host images options = .ok session) :
    ∃ state, MultiProcessRunner.boot host images (runOptions options) = .ok state
      ∧ session.runtime = state.runtime ∧ session.runtime_state = state.runtimeState
      ∧ session.total_steps = 0 ∧ session.resume_skip_active = false := by
  simp only [new, validateOptions, Library.bind_eq_ok] at h
  obtain ⟨timer, htimer, _, ⟨_, hquantum, hsteps⟩, _, himages, table, htable, h⟩ := h
  rcases hstart : ProcessLifecycleManager.start
      (MultiProcessRunner.newRuntime host (runOptions options) timer table) with
    ⟨message | runtimeState, runtime⟩
  · rw [hstart] at h
    cases h
  · rw [hstart] at h
    obtain rfl := Except.ok.inj h
    refine ⟨⟨runtime, runtimeState, 0, [], [], []⟩, ?_, rfl, rfl, rfl, rfl⟩
    have hvalid : MultiProcessRunner.validateOptions (runOptions options) = .ok () :=
      Library.bind_eq_ok.mpr ⟨(), reject_eq_ok.mpr (reject_eq_ok.mp hquantum),
        reject_eq_ok.mpr (reject_eq_ok.mp hsteps)⟩
    have hmake : TimerDevice.make (runOptions options).timer_vector (runOptions options).quantum
        (runOptions options).timer_payload = .ok timer := htimer
    simp only [MultiProcessRunner.boot, hvalid, reject_of_not (reject_eq_ok.mp himages), htable,
      hmake, ok_bind, hstart]

/-! ## Scripts -/

variable {host : H} {images : List ProcessImage} {options : MultiProcessDebugOptions H}

/-- What a run has come to. -/
structure Progress (H : Type) where
  events : List (Event H)
  phase : Phase
  session : MultiProcessDebugSession H

/-- The given number of parts of the command that is under way. -/
def Progress.forward [LongDouble] : ℕ → Progress H → Progress H
  | 0, progress => progress
  | parts + 1, ⟨events, phase, session⟩ => Progress.forward parts
      ⟨events ++ phase.events session, phaseAfter (phase.advance session).1,
        (phase.advance session).2⟩

/-- Commands in turn, each with the number of its parts. -/
def Progress.play [LongDouble] : List (Command × ℕ) → Progress H → Option (Progress H)
  | [], progress => some progress
  | (command, parts) :: script, ⟨events, .idle, session⟩ => Progress.play script <|
      Progress.forward parts
        ⟨events, phaseAfter (command.start session).1, (command.start session).2⟩
  | _, _ => none

/-- The progress belongs to a run from the start of the session. -/
def Progress.Reached [LongDouble] (host : H) (images : List ProcessImage)
    (options : MultiProcessDebugOptions H) (progress : Progress H) : Prop :=
  Run host images options progress.events progress.phase progress.session

/-- A reached progress stays reached when it goes forward. -/
theorem Progress.Reached.forward [LongDouble] {progress : Progress H}
    (h : progress.Reached host images options) (parts : ℕ) :
    (progress.forward parts).Reached host images options := by
  induction parts generalizing progress with
  | zero => exact h
  | succ parts ih => exact ih h.advance

/-- A reached progress stays reached when commands are played. -/
theorem Progress.Reached.play [LongDouble] {script : List (Command × ℕ)}
    {progress progress' : Progress H} (h : progress.Reached host images options)
    (hplay : progress.play script = some progress') : progress'.Reached host images options := by
  induction script generalizing progress with
  | nil =>
    obtain rfl := Option.some.inj hplay
    exact h
  | cons entry script ih =>
    obtain ⟨command, parts⟩ := entry
    obtain ⟨events, phase, session⟩ := progress
    cases phase with
    | idle =>
      have hstart : Progress.Reached host images options ⟨events, phaseAfter (command.start session).1,
          (command.start session).2⟩ := Run.command h command
      exact ih (hstart.forward parts) hplay
    | _ => cases hplay

/-- A script for a new session. -/
def script [LongDouble] (host : H) (images : List ProcessImage)
    (options : MultiProcessDebugOptions H) (commands : List (Command × ℕ)) : Option (Progress H) :=
  (new host images options).toOption.bind fun session =>
    Progress.play commands ⟨[], .idle, session⟩

/-- What a script reaches is reached. -/
theorem reached_script [LongDouble] {commands : List (Command × ℕ)} {progress : Progress H}
    (h : script host images options commands = some progress) :
    progress.Reached host images options := by
  obtain ⟨session, hsession, hplay⟩ := Option.bind_eq_some_iff.mp h
  cases hnew : new host images options with
  | error message =>
    rw [hnew] at hsession
    cases hsession
  | ok created =>
    rw [hnew] at hsession
    obtain rfl := Option.some.inj hsession
    have hstart : Progress.Reached host images options ⟨[], .idle, created⟩ := Run.created hnew
    exact hstart.play hplay

end MultiProcessDebugSession

end ZeroCpu.Debug
