import ZeroCpu.Debug.Session
import ZeroCpu.Trace.Recorded

/-!
# Sessions that commands reach

Reference: `src/debug/DebugSession.cpp`.

Whatever is done to a session with a loaded image, its process stays confined to its code, data and
stack, and a condition that reads memory stays inside it.
-/

namespace ZeroCpu.Debug

open Library Binary Kernel Exec

/-- The public methods that change a session. -/
inductive SessionCommand where
  | loadSymbolsFile (path text : Str)
  | addBreakpoint (address : ℕ)
  | removeBreakpoint (address : ℕ)
  | clearBreakpoints
  | addConditionalBreakpoint (address : ℕ) (condition : DebugCondition)
  | removeConditionalBreakpoint (id : ℕ)
  | clearConditionalBreakpoints
  | addWatchpoint (address size : ℕ) (mode : MemoryWatchMode)
  | removeWatchpoint (id : ℕ)
  | clearWatchpoints
  | step
  | stepSourceLine (maxSteps : ℕ)
  | continueExecution (maxSteps : ℕ)

namespace DebugSession

/-- The session a command leaves, whether the command returns or throws. -/
def after [LongDouble] (session : DebugSession) : SessionCommand → DebugSession
  | .loadSymbolsFile path text => (DebugSession.loadSymbolsFile path text session).2
  | .addBreakpoint address => (DebugSession.addBreakpoint address session).2
  | .removeBreakpoint address => (DebugSession.removeBreakpoint address session).2
  | .clearBreakpoints => (DebugSession.clearBreakpoints session).2
  | .addConditionalBreakpoint address condition =>
      (DebugSession.addConditionalBreakpoint address condition session).2
  | .removeConditionalBreakpoint id => (DebugSession.removeConditionalBreakpoint id session).2
  | .clearConditionalBreakpoints => (DebugSession.clearConditionalBreakpoints session).2
  | .addWatchpoint address size mode => (DebugSession.addWatchpoint address size mode session).2
  | .removeWatchpoint id => (DebugSession.removeWatchpoint id session).2
  | .clearWatchpoints => (DebugSession.clearWatchpoints session).2
  | .step => (DebugSession.step session).2
  | .stepSourceLine maxSteps => (DebugSession.stepSourceLine maxSteps session).2
  | .continueExecution maxSteps => (DebugSession.continueExecution maxSteps session).2

/-- A session in which the image has been loaded and any commands have been given since. -/
inductive Reached [LongDouble] (image : ProcessImage) : DebugSession → Prop
  | loaded {start session : DebugSession} (h : loadImage image start = (.ok (), session)) :
      Reached image session
  | command {session : DebugSession} (h : Reached image session) (command : SessionCommand) :
      Reached image (session.after command)

/-- The confinement of a process that has no devices. -/
def sessionConfinement (image : ProcessImage) : Confinement Unit :=
  imageConfinement image fun _ => True

/-- The session debugs the image's process. -/
structure Debugs (image : ProcessImage) (session : DebugSession) : Prop where
  valid : ValidImage image
  loaded : session.loaded = true
  metadata : session.metadata = image.metadata
  setup : session.cpu.setup = loadedSetup (CPU.new ()).setup image
  context : UserContext (sessionConfinement image) session.cpu.core
  message : session.cpu.core.state.hasError = false → session.cpu.core.state.errorMessage = []
  conditions : ∀ breakpoint ∈ session.conditional_breakpoints, breakpoint.condition.InRange 4096
  watchpoints : ∀ watchpoint ∈ session.watchpoints, watchpoint.size ≠ 0

variable {image : ProcessImage} {session : DebugSession}

/-- The confinement of a session fits its setup. -/
theorem sessionConfinement_fits (hv : ValidImage image) :
    (sessionConfinement image).Fits (loadedSetup (CPU.new ()).setup image) where
  toUserSetup := userSetup_loadedSetup hv _
  frozen_outside := fun _ h => ⟨h.1, .inl h.2⟩
  bus_read := nofun
  bus_write := nofun
  tick := nofun
  no_vector := nofun

/-- A session has no host handler, so that its trace is complete. -/
theorem recorded_loadedSetup (image : ProcessImage) :
    (loadedSetup (CPU.new ()).setup image).Recorded := nofun

/-! ## Loading -/

/-- Staging a valid image leaves a CPU that has resumed at its start. -/
theorem stageImage_eq (hv : ValidImage image) (ha : Activatable image) :
    stageImage image (CPU.new ())
      = (.ok (), { resumedCpu (CPU.new ()) image (initialContext 1 image) image.memory with
        trace := [] }) := by
  have hsize : (CPU.new ()).core.state.memory.size = 4096 := Memory.size_ofSize 4096
  have hrestore := restoreProcessContext_eq (CPU.new ()) hv
    (savedContext_initialContext hv Nat.one_ne_zero) (initialContext_pc_lt hv 1) image.memory
  simp only [stageImage, bind_apply, lift_apply, ofImage_eq hv,
    activate_eq (CPU.new ()) hv ha (savedMemory_image hv) hsize, hrestore, modify_apply]

/-- An image that cannot be activated is refused. -/
theorem stageImage_error (hv : ValidImage image) (ha : ¬ Activatable image) :
    ∃ message cpu, stageImage image (CPU.new ()) = (.error message, cpu) := by
  obtain ⟨message, hactivate⟩ := activate_error (CPU.new ()) hv ha image.memory
  refine ⟨message, CPU.new (), ?_⟩
  simp only [stageImage, bind_apply, lift_apply, ofImage_eq hv, hactivate]

/-- An activatable image loads into any session. -/
theorem loadImage_eq (hv : ValidImage image) (ha : Activatable image) (start : DebugSession) :
    loadImage image start = (.ok (),
      { cpu := { resumedCpu (CPU.new ()) image (initialContext 1 image) image.memory with trace := [] }
        loaded := true
        source_name := image.metadata.source_name
        metadata := image.metadata
        last_stop := { pc := image.initial_pc } }) := by
  simp only [loadImage, bind_apply, lift_apply, hv.validated, stageImage_eq hv ha, modify_apply]
  rfl

/-- A session is reached by loading an image. -/
theorem reached_loadImage [LongDouble] (hv : ValidImage image) (ha : Activatable image)
    (start : DebugSession) : Reached image (loadImage image start).2 := by
  have hloaded : loadImage image start = (.ok (), (loadImage image start).2) := by
    rw [loadImage_eq hv ha]
  exact .loaded hloaded

/-- A session that has loaded an image debugs it. -/
theorem debugs_of_loadImage {start : DebugSession}
    (h : loadImage image start = (.ok (), session)) : Debugs image session := by
  rw [loadImage, lift_bind_eq_ok] at h
  obtain ⟨_, hvalid, h⟩ := h
  have hv := validateProcessImage_eq_ok.mp hvalid
  by_cases ha : Activatable image
  · rw [stageImage_eq hv ha] at h
    obtain rfl := modify_eq_ok.mp h
    have hrunning : UserRunning (sessionConfinement image) _ := userRunning_resumedCpu (CPU.new ())
      (savedContext_initialContext hv Nat.one_ne_zero) (savedMemory_image hv) trivial
    exact {
      valid := hv
      loaded := rfl
      metadata := rfl
      setup := rfl
      context := hrunning.toUserContext
      message := fun _ => rfl
      conditions := nofun
      watchpoints := nofun }
  · obtain ⟨message, cpu, herror⟩ := stageImage_error hv ha
    rw [herror] at h
    cases (Prod.ext_iff.mp h).1

/-! ## Steps -/

/-- A CPU step keeps the session on its image. -/
theorem Debugs.stepCpu [LongDouble] (h : Debugs image session) :
    Debugs image session.stepCpu := by
  have hm : session.cpu.setup.Recorded := h.setup ▸ recorded_loadedSetup image
  obtain ⟨hsetup, hcontext⟩ := CPU.step_confined (sessionConfinement_fits h.valid) rfl h.setup h.context
  have hmessage : session.cpu.step.core.state.hasError = false →
      session.cpu.step.core.state.errorMessage = [] := by
    rcases CPU.step_trace hm h.message with ⟨-, hsame⟩ | ⟨-, _, -, -, -, hrecorded⟩
    · rw [hsame]
      exact h.message
    · exact hrecorded.message
  exact { h with setup := hsetup, context := hcontext, message := hmessage }

/-- What a command may do to a session besides stepping its CPU. -/
theorem Debugs.update {session' : DebugSession} (h : Debugs image session)
    (hcpu : session'.cpu = session.cpu) (hloaded : session'.loaded = session.loaded)
    (hmetadata : session'.metadata = session.metadata)
    (hconditions : session'.conditional_breakpoints ⊆ session.conditional_breakpoints)
    (hwatchpoints : session'.watchpoints ⊆ session.watchpoints) : Debugs image session' where
  valid := h.valid
  loaded := hloaded.trans h.loaded
  metadata := hmetadata.trans h.metadata
  setup := by
    rw [hcpu]
    exact h.setup
  context := by
    rw [hcpu]
    exact h.context
  message := by
    rw [hcpu]
    exact h.message
  conditions := fun breakpoint hmem => h.conditions breakpoint (hconditions hmem)
  watchpoints := fun watchpoint hmem => h.watchpoints watchpoint (hwatchpoints hmem)

theorem keeps_requireLoaded : Keeps (Debugs image) requireLoaded :=
  Keeps.get.bind fun _ => Keeps.require _ _

/-- Reporting a stop stays on the image. -/
theorem keeps_reportStop (stop : DebugSession → DebugStop) :
    Keeps (Debugs image) (reportStop stop) := by
  refine Keeps.bind (Keeps.modify fun _ h => ?_) fun _ => Keeps.gets _
  exact h.update rfl rfl rfl (List.Subset.refl _) (List.Subset.refl _)

theorem keeps_makeStop (reason : DebugStopReason) (executedSteps : ℕ) (message : Str) :
    Keeps (Debugs image) (makeStop reason executedSteps message) := keeps_reportStop _

/-- Classifying a stop stays on the image. -/
theorem keeps_classifyStoppedState (executedSteps : ℕ) :
    Keeps (Debugs image) (classifyStoppedState executedSteps) := by
  refine Keeps.get.bind fun _ => ?_
  dsimp only
  split
  · exact keeps_makeStop _ _ _
  · split
    · exact keeps_makeStop _ _ _
    · split
      · exact keeps_makeStop _ _ _
      · exact Keeps.pure _

theorem keeps_map {α β : Type} {f : α → β} {m : Method α} (h : Keeps (Debugs image) m) :
    Keeps (Debugs image) (f <$> m) := Keeps.bind h fun _ => Keeps.pure _

/-- The checks after a step stay on the image. -/
theorem keeps_stopAfterStep (executedSteps : ℕ) :
    Keeps (Debugs image) (stopAfterStep executedSteps) := by
  refine (keeps_classifyStoppedState executedSteps).bind fun after => ?_
  split
  · exact Keeps.pure _
  · refine Keeps.get.bind fun session => ?_
    split
    · exact keeps_map ((keeps_makeStop _ _ _).bind fun _ => keeps_reportStop _)
    · exact Keeps.pure _

/-- The check for breakpoints stays on the image. -/
theorem keeps_stopAtBreakpoint (executedSteps : ℕ) :
    Keeps (Debugs image) (stopAtBreakpoint executedSteps) := by
  refine Keeps.get.bind fun session => ?_
  refine (keeps_requireLoaded.bind fun _ => Keeps.gets _).bind fun plain => ?_
  split
  · exact keeps_map (keeps_makeStop _ _ _)
  · refine (Keeps.lift _).bind fun hit => ?_
    split
    · exact keeps_map ((keeps_makeStop _ _ _).bind fun _ => keeps_reportStop _)
    · exact Keeps.pure _

/-- The checks before a step stay on the image. -/
theorem keeps_stopBeforeStep (executedSteps : ℕ) (skip : Bool) :
    Keeps (Debugs image) (stopBeforeStep executedSteps skip) := by
  refine (keeps_classifyStoppedState executedSteps).bind fun stopped => ?_
  split
  · exact Keeps.pure _
  · split
    · exact Keeps.pure _
    · exact keeps_stopAtBreakpoint executedSteps

/-- The check for a new source line stays on the image. -/
theorem keeps_stopAtSourceLine (sourceLineBefore executedSteps : ℕ) :
    Keeps (Debugs image) (stopAtSourceLine sourceLineBefore executedSteps) := by
  refine Keeps.get.bind fun session => ?_
  split
  · split
    · exact keeps_map (keeps_makeStop _ _ _)
    · exact Keeps.pure _
  · exact Keeps.pure _

/-- A check and what follows it stay on the image when both do. -/
theorem keeps_unlessStopped {check : Method (Option DebugStop)} {next : Method DebugStop}
    (hcheck : Keeps (Debugs image) check) (hnext : Keeps (Debugs image) next) :
    Keeps (Debugs image) (unlessStopped check next) := by
  refine hcheck.bind fun stop => ?_
  cases stop with
  | some stop => exact Keeps.pure _
  | none => exact hnext

theorem keeps_stepCpu [LongDouble] : Keeps (Debugs image) (Exec.modify stepCpu : Method Unit) :=
  Keeps.modify fun _ h => h.stepCpu

/-- The step command stays on the image. -/
theorem keeps_step [LongDouble] : Keeps (Debugs image) step := by
  refine keeps_requireLoaded.bind fun _ => (keeps_classifyStoppedState 0).bind fun stopped => ?_
  split
  · exact Keeps.pure _
  · exact keeps_stepCpu.bind fun _ =>
      keeps_unlessStopped (keeps_stopAfterStep 1) (keeps_makeStop _ _ _)

/-- The loop of continue stays on the image. -/
theorem keeps_continueLoop [LongDouble] (executedSteps : ℕ) (skip : Bool) (remaining : ℕ) :
    Keeps (Debugs image) (continueLoop executedSteps skip remaining) := by
  induction remaining generalizing executedSteps skip with
  | zero => exact keeps_unlessStopped (keeps_stopBeforeStep _ _) (keeps_makeStop _ _ _)
  | succ remaining ih =>
    exact keeps_unlessStopped (keeps_stopBeforeStep _ _) <| keeps_stepCpu.bind fun _ =>
      keeps_unlessStopped (keeps_stopAfterStep _) (ih _ _)

/-- The loop of a source step stays on the image. -/
theorem keeps_sourceLineLoop [LongDouble] (line executedSteps : ℕ) (skip : Bool) (remaining : ℕ) :
    Keeps (Debugs image) (sourceLineLoop line executedSteps skip remaining) := by
  induction remaining generalizing executedSteps skip with
  | zero => exact keeps_unlessStopped (keeps_stopBeforeStep _ _) (keeps_makeStop _ _ _)
  | succ remaining ih =>
    exact keeps_unlessStopped (keeps_stopBeforeStep _ _) <| keeps_stepCpu.bind fun _ =>
      keeps_unlessStopped (keeps_stopAfterStep _) <|
        keeps_unlessStopped (keeps_stopAtBreakpoint _) <|
          keeps_unlessStopped (keeps_stopAtSourceLine _ _) (ih _ _)

/-! ## Commands -/

/-- The continue command stays on the image. -/
theorem keeps_continueExecution [LongDouble] (maxSteps : ℕ) :
    Keeps (Debugs image) (continueExecution maxSteps) :=
  keeps_requireLoaded.bind fun _ => (Keeps.require _ _).bind fun _ => Keeps.get.bind fun _ =>
    keeps_continueLoop _ _ _

/-- The source step command stays on the image. -/
theorem keeps_stepSourceLine [LongDouble] (maxSteps : ℕ) :
    Keeps (Debugs image) (stepSourceLine maxSteps) := by
  refine keeps_requireLoaded.bind fun _ => (Keeps.require _ _).bind fun _ => ?_
  refine (keeps_classifyStoppedState 0).bind fun initialState => ?_
  split
  · exact Keeps.pure _
  · exact Keeps.get.bind fun _ => (Keeps.require _ _).bind fun _ => (Keeps.lift _).bind fun _ =>
      keeps_sourceLineLoop _ _ _ _

/-- A condition that is added has been checked against the memory. -/
theorem keeps_addConditionalBreakpoint (address : ℕ) (condition : DebugCondition) :
    Keeps (Debugs image) (addConditionalBreakpoint address condition) := by
  refine keeps_requireLoaded.bind fun _ s h => ?_
  rw [bind_of_ok (get_apply s)]
  simp only [bind_apply, lift_apply]
  cases s.validateBreakpointAddress address with
  | error message => exact h
  | ok _ =>
    cases hrange : condition.validateForCPU s.cpu with
    | error message => exact h
    | ok _ =>
      have hin := DebugCondition.validateForCPU_eq_ok.mp hrange
      rw [h.context.memory_size] at hin
      dsimp only
      generalize s.conditional_breakpoints.find? _ = existing
      cases existing with
      | some existing => exact h
      | none =>
        simp only [bind_apply, require_apply]
        cases s.next_conditional_breakpoint_id != sizeMax with
        | false => exact h
        | true =>
          refine { h with conditions := fun breakpoint hmem => ?_ }
          rcases List.mem_append.mp hmem with hmem | hmem
          · exact h.conditions breakpoint hmem
          · obtain rfl := List.mem_singleton.mp hmem
            exact hin

/-- What a command changes besides stepping the CPU and adding a condition or a watchpoint. -/
theorem keeps_modify {f : DebugSession → DebugSession}
    (hsame : ∀ s, (f s).cpu = s.cpu ∧ (f s).loaded = s.loaded ∧ (f s).metadata = s.metadata)
    (hconditions : ∀ s, (f s).conditional_breakpoints ⊆ s.conditional_breakpoints)
    (hwatchpoints : ∀ s, (f s).watchpoints ⊆ s.watchpoints) :
    Keeps (Debugs image) (Exec.modify f : Method Unit) :=
  Keeps.modify fun s h =>
    h.update (hsame s).1 (hsame s).2.1 (hsame s).2.2 (hconditions s) (hwatchpoints s)

/-- A watchpoint that is added has been checked for its size. -/
theorem keeps_addWatchpoint (address size : ℕ) (mode : MemoryWatchMode) :
    Keeps (Debugs image) (addWatchpoint address size mode) := by
  refine keeps_requireLoaded.bind fun _ s h => ?_
  rw [bind_of_ok (get_apply s)]
  simp only [bind_apply, lift_apply]
  cases hrange : s.validateWatchpointRange address size with
  | error message => exact h
  | ok _ =>
    obtain ⟨_, hsize, -⟩ := Library.bind_eq_ok.mp hrange
    dsimp only
    generalize s.watchpoints.find? _ = existing
    cases existing with
    | some existing => exact h
    | none =>
      simp only [bind_apply, require_apply]
      cases s.next_watchpoint_id != sizeMax with
      | false => exact h
      | true =>
        refine { h with watchpoints := fun watchpoint hmem => ?_ }
        rcases List.mem_append.mp hmem with hmem | hmem
        · exact h.watchpoints watchpoint hmem
        · obtain rfl := List.mem_singleton.mp hmem
          exact reject_eq_ok.mp hsize

/-- Symbols and breakpoints besides conditional ones leave conditions and watchpoints alone. -/
theorem keeps_modify_settings {f : DebugSession → DebugSession}
    (hsame : ∀ s, (f s).cpu = s.cpu ∧ (f s).loaded = s.loaded ∧ (f s).metadata = s.metadata)
    (hlists : ∀ s, (f s).conditional_breakpoints = s.conditional_breakpoints
      ∧ (f s).watchpoints = s.watchpoints) :
    Keeps (Debugs image) (Exec.modify f : Method Unit) :=
  keeps_modify hsame (fun s => (hlists s).1 ▸ List.Subset.refl _)
    fun s => (hlists s).2 ▸ List.Subset.refl _

/-- The image's process stays the one debugged, whatever the command. -/
theorem Debugs.after [LongDouble] (h : Debugs image session) (command : SessionCommand) :
    Debugs image (session.after command) := by
  -- The settings are no part of the machine; of breakpoints and watchpoints only those set by a
  -- command matter.
  cases command with
  | step => exact keeps_step session h
  | stepSourceLine maxSteps => exact keeps_stepSourceLine maxSteps session h
  | continueExecution maxSteps => exact keeps_continueExecution maxSteps session h
  | addConditionalBreakpoint address condition =>
    exact keeps_addConditionalBreakpoint address condition session h
  | addWatchpoint address size mode => exact keeps_addWatchpoint address size mode session h
  | loadSymbolsFile path text =>
    refine (keeps_requireLoaded.bind fun _ => (Keeps.lift _).bind fun _ => ?_) session h
    exact keeps_modify_settings (fun _ => ⟨rfl, rfl, rfl⟩) fun _ => ⟨rfl, rfl⟩
  | addBreakpoint address =>
    refine (keeps_requireLoaded.bind fun _ => Keeps.get.bind fun _ => (Keeps.lift _).bind fun _ =>
      Keeps.bind ?_ fun _ => Keeps.pure _) session h
    exact keeps_modify_settings (fun _ => ⟨rfl, rfl, rfl⟩) fun _ => ⟨rfl, rfl⟩
  | removeBreakpoint address =>
    refine (keeps_requireLoaded.bind fun _ => Keeps.get.bind fun _ =>
      Keeps.bind ?_ fun _ => Keeps.pure _) session h
    exact keeps_modify_settings (fun _ => ⟨rfl, rfl, rfl⟩) fun _ => ⟨rfl, rfl⟩
  | clearBreakpoints =>
    refine (keeps_requireLoaded.bind fun _ => ?_) session h
    exact keeps_modify_settings (fun _ => ⟨rfl, rfl, rfl⟩) fun _ => ⟨rfl, rfl⟩
  | removeConditionalBreakpoint id =>
    refine (keeps_requireLoaded.bind fun _ => Keeps.get.bind fun _ =>
      Keeps.bind ?_ fun _ => Keeps.pure _) session h
    exact keeps_modify (fun _ => ⟨rfl, rfl, rfl⟩) (fun _ => List.eraseP_subset)
      fun _ => List.Subset.refl _
  | clearConditionalBreakpoints =>
    refine (keeps_requireLoaded.bind fun _ => ?_) session h
    exact keeps_modify (fun _ => ⟨rfl, rfl, rfl⟩) (fun _ => List.nil_subset _)
      fun _ => List.Subset.refl _
  | removeWatchpoint id =>
    refine (keeps_requireLoaded.bind fun _ => Keeps.get.bind fun _ =>
      Keeps.bind ?_ fun _ => Keeps.pure _) session h
    exact keeps_modify (fun _ => ⟨rfl, rfl, rfl⟩) (fun _ => List.Subset.refl _)
      fun _ => List.eraseP_subset
  | clearWatchpoints =>
    refine (keeps_requireLoaded.bind fun _ => ?_) session h
    exact keeps_modify (fun _ => ⟨rfl, rfl, rfl⟩) (fun _ => List.Subset.refl _)
      fun _ => List.nil_subset _

/-- A reached session debugs its image. -/
theorem Reached.debugs [LongDouble] (h : Reached image session) : Debugs image session := by
  induction h with
  | loaded h => exact debugs_of_loadImage h
  | command _ command ih => exact ih.after command

end DebugSession

end ZeroCpu.Debug
