import ZeroCpu.System.Isolation

/-!
# Isolated runs

Reference: `src/system/MultiProcessRunner.cpp`, `runImages`.

`runImages` returns exactly when no round that it reaches is a dead end, and in every round the
processes are isolated from each other.
-/

namespace ZeroCpu.Sys

open Library Kernel

variable {H : Type}

namespace MultiProcessRunner

open ProcessLifecycleManager TimerPreemptiveScheduler

variable {host : H} {images : List ProcessImage} {options : MultiProcessRunOptions H}
  {base : Setup (Board H)} {s s' : RunState H} {rt rt' : Runtime H}

/-! ## Rounds -/

/-- What every round of a run starts from. -/
structure Underway (images : List ProcessImage) (base : Setup (Board H)) (s : RunState H) : Prop
    extends Steady images base s where
  started : Started s.runtime
  running : s.runtimeState = .Running → s.runtime.table.running_pid ≠ 0

/-- A round of a started runtime leaves it started. -/
theorem Started.lifecycleStep [LongDouble] (h : Started rt) {result : ProcessLifecycleStepResult}
    (hstep : LifecycleStep rt result rt') : Started rt' := by
  cases hstep with
  | early preempts =>
    obtain ⟨d, -, -, -, -, rfl⟩ := preempts.switch
    exact ⟨h.attached, h.preemptive, h.lifecycle⟩
  | late quiet goesOn preempts =>
    obtain ⟨d, -, -, -, -, rfl⟩ := preempts.switch
    exact ⟨h.attached, h.preemptive, h.lifecycle⟩
  | plain => exact ⟨h.attached, h.preemptive, h.lifecycle⟩
  | terminates quiet stopped terminates =>
    cases terminates with
    | last => exact ⟨h.attached, h.preemptive, h.lifecycle⟩
    | switches => exact ⟨h.attached, h.preemptive, h.lifecycle⟩

/-- Preparing a round leaves a runtime started. -/
theorem Started.prepared (h : Started rt) (hprepared : Prepared rt rt') : Started rt' := by
  cases hprepared with
  | running => exact h
  | completed => exact ⟨h.attached, h.preemptive, h.lifecycle⟩

/-- A round leaves a run underway. -/
theorem Underway.iterate [LongDouble] (hbase : Connected options base)
    (hadmissible : Admissible options.software_interrupt_handler) (h : Underway images base s)
    (hrunning : s.runtimeState = .Running) (hiterate : MultiProcessRunner.iterate s = .ok s') :
    Underway images base s' := by
  have hsteady := h.toSteady.iterate hbase hadmissible hrunning hiterate
  obtain ⟨hne, rt, result, after, hprepared, hstep, rfl⟩ :=
    iterate_eq_ok h.settled.invariant (h.state.trans hrunning) hiterate
  have hinv : rt.table.Invariant := hprepared.table.symm ▸ h.settled.invariant
  have hne' : rt.table.running_pid ≠ 0 := hprepared.table.symm ▸ hne
  have hstate : rt.lifecycle.state = .Running :=
    hprepared.lifecycle.symm ▸ h.state.trans hrunning
  obtain ⟨_, _, -, -, -, haccounts⟩ := accounts_of_step hinv hne' hstate hstep
  have hstarted := Started.lifecycleStep (Started.prepared h.started hprepared) hstep
  exact ⟨hsteady, ⟨hstarted.attached, hstarted.preemptive, hstarted.lifecycle⟩,
    fun hr => haccounts.state.mp hr⟩

/-- A run starts underway. -/
theorem Booted.underway (h : Booted host images options s) :
    ∃ base, Connected options base ∧ Underway images base s := by
  obtain ⟨base, hbase, hsteady⟩ := h.steady
  refine ⟨base, hbase, hsteady, ?_, fun _ => ?_⟩
  · obtain ⟨table, timer, selected, d, -, -, -, rfl⟩ := h.started
    exact ⟨rfl, rfl, rfl⟩
  · obtain ⟨table, timer, selected, d, hcreated, -, hdispatch, rfl⟩ := h.started
    obtain ⟨hinv, hselected, ⟨process, hprocess, -⟩, -⟩ :=
      find?_of_dispatchNext (d := ⟨attachedCpu host options timer table, table, .initial⟩)
        hcreated.invariant hdispatch
    show d.table.running_pid ≠ 0
    rw [hselected]
    exact (hinv.entry hprocess).pid_ne

/-- The check for the end of the code never fails. -/
theorem completeAtEnd_ok (hinv : rt.table.Invariant) : ∃ rt', completeAtEnd rt = .ok rt' := by
  have hreached : ∃ atEnd, reachedExecutableEnd rt = .ok atEnd := by
    rw [reachedExecutableEnd]
    split_ifs with hidle
    · exact ⟨false, rfl⟩
    · have hrun : rt.table.hasRunningProcess = true := by
        simp only [Bool.or_eq_true, Bool.not_eq_true', not_or, Bool.not_eq_false] at hidle
        exact hidle.1
      have hne := ProcessTable.hasRunningProcess_iff.mp hrun
      obtain ⟨process, hp, -⟩ := (hinv.running rt.table.running_pid).mp ⟨rfl, hne⟩
      rw [TimerPreemptiveScheduler.runningProcessId_eq_ok.mpr ⟨hne, rfl⟩, ok_bind,
        ProcessTable.process_eq_ok.mpr hp, ok_bind]
      cases process.addressSpace.executable_metadata with
      | none => exact ⟨_, rfl⟩
      | some metadata => exact ⟨_, rfl⟩
  obtain ⟨atEnd, hatEnd⟩ := hreached
  rw [completeAtEnd, hatEnd, ok_bind]
  split_ifs
  · exact ⟨_, rfl⟩
  · exact ⟨_, rfl⟩

/-- A process that is halted at the end of its code makes no call. -/
theorem not_strands_of_stopped (h : Underway images base s) (hne : s.runtime.table.running_pid ≠ 0)
    (hprepared : Prepared s.runtime rt) (hstopped : rt.cpu.Stopped) : ¬ Strands rt.cpu := by
  cases hprepared with
  | running inside => exact absurd hstopped (h.going hne)
  | completed atEnd =>
    intro hs
    rw [h.settled.reachedExecutableEnd hne (h.going hne)] at atEnd
    have hpc := beq_iff_eq.mp (Except.ok.inj atEnd)
    have hlast : s.runtime.cpu.core.state.pc + 24 = s.runtime.cpu.setup.userCodeEndExclusive :=
      hs.last
    omega

/-- A round returns exactly when it is no dead end. -/
theorem Underway.iterate_ok_iff [LongDouble] (hbase : Connected options base)
    (hadmissible : Admissible options.software_interrupt_handler) (h : Underway images base s)
    (hrunning : s.runtimeState = .Running) :
    (∃ s', MultiProcessRunner.iterate s = .ok s')
      ↔ ∀ rt, completeAtEnd s.runtime = .ok rt → ¬ DeadEnd images rt := by
  have hne := h.running hrunning
  have hhas : s.runtime.table.hasRunningProcess = true := ProcessTable.hasRunningProcess_iff.mpr hne
  obtain ⟨rt, hrt⟩ := completeAtEnd_ok h.settled.invariant
  have hprepared := completeAtEnd_eq_ok hrt
  have hstep : (∃ result after, ProcessLifecycleManager.step rt = (.ok result, after))
      ↔ ¬ DeadEnd images rt :=
    (Settled.prepared h.settled hprepared).step_returns_iff hbase hadmissible
      (Started.prepared h.started hprepared)
      (hprepared.lifecycle.symm ▸ h.state.trans hrunning) (hprepared.table.symm ▸ hne)
      (not_strands_of_stopped h hne hprepared)
  -- Everything before the lifecycle step succeeds.
  have hiterate : (∃ s', MultiProcessRunner.iterate s = .ok s')
      ↔ ∃ result after, ProcessLifecycleManager.step rt = (.ok result, after) := by
    rw [MultiProcessRunner.iterate, reject_of_not (not_not.mpr hhas), ok_bind,
      TimerPreemptiveScheduler.runningProcessId_eq_ok.mpr ⟨hne, rfl⟩, ok_bind, hrt, ok_bind]
    rcases ProcessLifecycleManager.step rt with ⟨e | result, after⟩
    · refine iff_of_false ?_ ?_
      · rintro ⟨_, ⟨⟩⟩
      · rintro ⟨_, _, hthrown⟩
        cases (Prod.ext_iff.mp hthrown).1
    · exact iff_of_true ⟨_, rfl⟩ ⟨result, after, rfl⟩
  rw [hiterate, hstep]
  constructor
  · intro hno rt' hrt'
    rwa [← Except.ok.inj (hrt.symm.trans hrt')]
  · exact fun hno => hno rt hrt

/-! ## Runs -/

/-- The loop returns exactly when every round that it reaches does. -/
theorem runLoop_ok_iff [LongDouble] {P G : RunState H → Prop}
    (hround : ∀ s s', P s → s.runtimeState = .Running → MultiProcessRunner.iterate s = .ok s' → P s')
    (hreturns : ∀ s, P s → s.runtimeState = .Running →
      ((∃ s', MultiProcessRunner.iterate s = .ok s') ↔ G s))
    (rounds : ℕ) (hs : P s) :
    (∃ s', runLoop rounds s = .ok s')
      ↔ ∀ n < rounds, ∀ t, runLoop n s = .ok t → t.runtimeState = .Running → G t := by
  induction rounds generalizing s with
  | zero => exact iff_of_true ⟨s, rfl⟩ fun n hn => absurd hn n.not_lt_zero
  | succ rounds ih =>
    by_cases hrunning : s.runtimeState = .Running
    · have hloop : ∀ n, runLoop (n + 1) s = MultiProcessRunner.iterate s >>= runLoop n := by
        intro n
        rw [runLoop, if_neg (not_not.mpr hrunning)]
      rw [hloop]
      constructor
      · rintro ⟨s', hrun⟩ n hn t ht hstate
        obtain ⟨next, hnext, hrest⟩ := bind_eq_ok.mp hrun
        cases n with
        | zero =>
          obtain rfl := Except.ok.inj ht
          exact (hreturns s hs hrunning).mp ⟨next, hnext⟩
        | succ n =>
          rw [hloop, hnext, ok_bind] at ht
          exact (ih (hround s next hs hrunning hnext)).mp ⟨s', hrest⟩ n (Nat.lt_of_succ_lt_succ hn) t
            ht hstate
      · intro hgood
        obtain ⟨next, hnext⟩ :=
          (hreturns s hs hrunning).mpr (hgood 0 rounds.succ_pos s rfl hrunning)
        rw [hnext, ok_bind]
        refine (ih (hround s next hs hrunning hnext)).mpr fun n hn t ht hstate => ?_
        refine hgood (n + 1) (Nat.succ_lt_succ hn) t ?_ hstate
        rw [hloop, hnext, ok_bind]
        exact ht
    · -- A run that is over stays where it is.
      have hover : ∀ n, runLoop n s = .ok s := by
        intro n
        cases n with
        | zero => rfl
        | succ n => rw [runLoop, if_pos hrunning]
      refine iff_of_true ⟨s, hover _⟩ fun n _ t ht hstate => ?_
      obtain rfl := Except.ok.inj ((hover n).symm.trans ht)
      exact absurd hstate hrunning

/-- The summaries can always be made. -/
theorem makeSummaries_ok (h : Settled images base rt) {pids : List ProcessId}
    (hpids : ∀ pid ∈ pids, pid ∈ rt.table.processes.keys) :
    ∃ summaries, makeSummaries rt pids = .ok summaries := by
  induction pids with
  | nil => exact ⟨[], rfl⟩
  | cons pid rest ih =>
    obtain ⟨summaries, hrest⟩ := ih fun other hother => hpids other (List.mem_cons_of_mem _ hother)
    obtain ⟨process, hp⟩ := Option.isSome_iff_exists.mp
      ((SortedMap.mem_keys_iff _ _).mp (hpids pid List.mem_cons_self))
    have hcontext : ∃ context, finalContext pid process rt.cpu
        (rt.table.hasRunningProcess && rt.table.running_pid == pid) = .ok context := by
      rw [finalContext]
      split_ifs with hrunning
      · rw [Bool.and_eq_true, beq_iff_eq] at hrunning
        have hne := ProcessTable.hasRunningProcess_iff.mp hrunning.1
        obtain ⟨image, -, hresident⟩ := h.resident hne
        exact ⟨_, captureProcessContextSnapshot_eq hresident.valid (hrunning.2 ▸ hne)
          hresident.setup hresident.user⟩
      · exact ⟨_, rfl⟩
    obtain ⟨context, hcontext⟩ := hcontext
    simp only [makeSummaries, ProcessTable.process_eq_ok.mpr hp, ok_bind, makeSummary, hcontext,
      hrest]
    exact ⟨_, rfl⟩

/-- A settled run has a result. -/
theorem finish_ok (options : MultiProcessRunOptions H) (h : Settled images base s.runtime) :
    ∃ result, MultiProcessRunner.finish options s = .ok result := by
  obtain ⟨summaries, hsummaries⟩ :=
    makeSummaries_ok h fun pid (hpid : pid ∈ s.runtime.table.processIds) => hpid
  rw [MultiProcessRunner.finish, hsummaries, ok_bind]
  exact ⟨_, rfl⟩

/-- A round of the run from `first` starts in `s`. -/
def Reaches [LongDouble] (options : MultiProcessRunOptions H) (first s : RunState H) : Prop :=
  ∃ rounds < options.max_lifecycle_steps.toNat, runLoop rounds first = .ok s
    ∧ s.runtimeState = .Running

/-- The run returns a result, and every round of it ends at most the process that it has run. -/
structure RunsIsolated [LongDouble] (host : H) (images : List ProcessImage)
    (options : MultiProcessRunOptions H) (first : RunState H) : Prop where
  returns : ∃ result, runImages host images options = .ok result
  rounds : ∀ s, Reaches options first s → ∃ rt s', completeAtEnd s.runtime = .ok rt
    ∧ MultiProcessRunner.iterate s = .ok s' ∧ Isolated rt s'.runtime.table

end MultiProcessRunner

open MultiProcessRunner

/-- Once the lifecycle has started, a run isolates the faults of its processes exactly when it comes
to no dead end. -/
theorem runner_isolates_faults [LongDouble] {host : H} {images : List ProcessImage}
    {options : MultiProcessRunOptions H} (hadmissible : Admissible options.software_interrupt_handler)
    {first : RunState H} (hboot : boot host images options = .ok first) :
    RunsIsolated host images options first
      ↔ ∀ s, Reaches options first s → ∀ rt, completeAtEnd s.runtime = .ok rt →
        ¬ DeadEnd images rt := by
  obtain ⟨base, hbase, hfirst⟩ := (boot_eq_ok hboot).underway
  have hround : ∀ s s' : RunState H, Underway images base s → s.runtimeState = .Running →
      iterate s = .ok s' → Underway images base s' := fun _ _ h hrunning hiterate =>
    h.iterate hbase hadmissible hrunning hiterate
  -- An iteration throws exactly where the step begins in a dead end.
  have hreturns : ∀ s : RunState H, Underway images base s → s.runtimeState = .Running →
      ((∃ s', iterate s = .ok s')
        ↔ ∀ rt, completeAtEnd s.runtime = .ok rt → ¬ DeadEnd images rt) := fun _ h hrunning =>
    h.iterate_ok_iff hbase hadmissible hrunning
  have hloop := runLoop_ok_iff hround hreturns options.max_lifecycle_steps.toNat hfirst
  constructor
  -- Every state reached goes on, so none begins in a dead end.
  · intro hisolated s ⟨rounds, hrounds, hrun, hrunning⟩
    have hunderway := runLoop_induct hround hfirst hrun
    obtain ⟨-, s', -, hiterate, -⟩ := hisolated.rounds s ⟨rounds, hrounds, hrun, hrunning⟩
    exact (hreturns s hunderway hrunning).mp ⟨s', hiterate⟩
  -- Without dead ends no iteration throws, and every step is isolated.
  · intro hno
    refine ⟨?_, fun s ⟨rounds, hrounds, hrun, hrunning⟩ => ?_⟩
    · obtain ⟨last, hlast⟩ := hloop.mpr fun rounds hrounds s hrun hrunning =>
        hno s ⟨rounds, hrounds, hrun, hrunning⟩
      obtain ⟨result, hresult⟩ := finish_ok options
        (runLoop_induct hround hfirst hlast).settled
      exact ⟨result, by rw [runImages, hboot, ok_bind, hlast, ok_bind, hresult]⟩
    · have hunderway := runLoop_induct hround hfirst hrun
      obtain ⟨s', hiterate⟩ := (hreturns s hunderway hrunning).mpr
        (hno s ⟨rounds, hrounds, hrun, hrunning⟩)
      obtain ⟨hne, rt, result, after, hprepared, hstep, rfl⟩ :=
        iterate_eq_ok hunderway.settled.invariant (hunderway.state.trans hrunning) hiterate
      refine ⟨rt, _, hprepared.completeAtEnd, hiterate, ?_⟩
      have hisolated := isolated_of_step (hprepared.table.symm ▸ hunderway.settled.invariant)
        (hprepared.table.symm ▸ hne) hstep
      exact hisolated

/-- `INT 80` alone, as an image: its return address is the end of the code. -/
def lastCallImage : ProcessImage :=
  Kernel.imageOf {
    header := { code_size := 24 }
    code := (InstructionEncoder.encodeProgram [⟨.INT, .immediate 80, .none⟩] []).toOption.getD [] }
    (Str.ofString "last call")

/-- A division by zero next to a process that goes on. -/
theorem runner_isolates_faults_first :
    letI : LongDouble := LongDouble.x87
    ∃ s, boot freshFilesystem [syscallImage] syscallOptions = .ok s
      ∧ (RunsIsolated freshFilesystem [syscallImage] syscallOptions s
        ↔ ∀ t, Reaches syscallOptions s t → ∀ rt, completeAtEnd t.runtime = .ok rt →
          ¬ DeadEnd [syscallImage] rt) := by
  cases hboot : boot freshFilesystem [syscallImage] syscallOptions with
  | error e =>
    have hok : (boot freshFilesystem [syscallImage] syscallOptions).toOption.isSome = true := by
      decide +kernel
    rw [hboot] at hok
    cases hok
  | ok s => exact ⟨s, rfl, @runner_isolates_faults _ LongDouble.x87 _ _ _ (.dispatcher _) s hboot⟩

/-- A process that calls the system from its last instruction takes the runner down, and with it a
process that has done nothing wrong. -/
theorem not_runner_isolates_faults :
    letI : LongDouble := LongDouble.x87
    ¬ ∀ (host : ZeroFS) (images : List ProcessImage) (options : MultiProcessRunOptions ZeroFS)
        (first : RunState ZeroFS), Admissible options.software_interrupt_handler →
      boot host images options = .ok first → RunsIsolated host images options first := by
  intro h
  have hfacts : (boot freshFilesystem [lastCallImage, syscallImage] syscallOptions).toOption.isSome
        = true
      ∧ (@runImages _ LongDouble.x87 freshFilesystem [lastCallImage, syscallImage]
        syscallOptions).toOption.isSome = false := by
    decide +kernel
  cases hboot : boot freshFilesystem [lastCallImage, syscallImage] syscallOptions with
  | error e =>
    have hok := hfacts.1
    rw [hboot] at hok
    cases hok
  | ok first =>
    obtain ⟨⟨result, hresult⟩, -⟩ := h _ _ _ first (.dispatcher _) hboot
    have hthrown := hfacts.2
    rw [hresult] at hthrown
    cases hthrown

end ZeroCpu.Sys
