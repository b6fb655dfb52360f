import Mathlib.Data.List.Rotate
import ZeroCpu.Kernel.Scheduler
import ZeroCpu.Kernel.TableInvariant
import ZeroCpu.Library.Cyclic

/-!
# Round-robin scheduling

Reference: `src/kernel/RoundRobinScheduler.cpp`.

On a table that meets its invariant the candidates of `scheduleNext` are the runnable processes in
strictly ascending order of their PIDs, and `rotateAfterCursor` puts them in the order of a cyclic
walk from the cursor. A selection always succeeds, and the walk's `waiting` measure bounds how many
of them a runnable process sees before its own.
-/

namespace ZeroCpu.Kernel

open Library

variable {W : Type}

/-- The process is Ready or Running. -/
def ProcessTable.Runnable (table : ProcessTable) (pid : ProcessId) : Prop :=
  ∃ process, table.processes.find? pid = some process
    ∧ (process.state = .Ready ∨ process.state = .Running)

namespace ProcessTable

variable {table : ProcessTable} {pid : ProcessId} {process : ProcessControlBlock}

/-- The processes in a state are those the table holds in it. -/
theorem mem_processIdsInState {state : ProcessState} :
    pid ∈ table.processIdsInState state
      ↔ ∃ process, table.processes.find? pid = some process ∧ process.state = state := by
  rw [processIdsInState, List.mem_map]
  constructor
  · rintro ⟨entry, hentry, rfl⟩
    obtain ⟨hmem, hstate⟩ := List.mem_filter.mp hentry
    exact ⟨entry.2, table.processes.find?_of_mem hmem, beq_iff_eq.mp hstate⟩
  · rintro ⟨process, hp, hstate⟩
    refine ⟨(pid, process), List.mem_filter.mpr ⟨table.processes.mem_of_find? hp, ?_⟩, rfl⟩
    exact beq_iff_eq.mpr hstate

/-- The processes in a state are listed in the order of the table. -/
theorem processIdsInState_sublist (state : ProcessState) :
    (table.processIdsInState state).Sublist table.processes.keys :=
  List.filter_sublist.map Prod.fst

theorem hasRunningProcess_iff : table.hasRunningProcess = true ↔ table.running_pid ≠ 0 :=
  bne_iff_ne

/-- `transition` does what it is asked to when nothing speaks against it. -/
theorem transition_of_legal (state : ProcessState) (hp : table.processes.find? pid = some process)
    (hstate : state ≠ .Terminated)
    (hlegal : canTransitionProcessState process.state state = true)
    (halone : state = .Running → table.running_pid = 0 ∨ table.running_pid = pid) :
    table.transition pid state = .ok { table.setProcess pid { process with state := state } with
      running_pid := if state = .Running then pid
        else if process.state = .Running then 0 else table.running_pid } := by
  have hother : ¬ (state = .Running ∧ table.running_pid ≠ 0 ∧ table.running_pid ≠ pid) := by
    rintro ⟨hrun, hne, hpid⟩
    exact (halone hrun).elim hne hpid
  simp only [transition, reject_of_not hstate, process_eq_ok.mpr hp, reject_of_not hother,
    ProcessControlBlock.transitionTo, reject_of_not (not_not.mpr hlegal), ok_bind]
  rfl

end ProcessTable

/-! ## Handing over the CPU -/

/-- A process of the table once `selected` has been handed the CPU. -/
def handedOver (selected pid : ProcessId) (process : ProcessControlBlock) : ProcessControlBlock :=
  if pid = selected then { process with state := .Running }
  else if process.state = .Running then { process with state := .Ready }
  else process

/-- `selected` runs in place of whichever process ran before; nothing else changes. -/
structure Handover (table : ProcessTable) (selected : ProcessId) (table' : ProcessTable) : Prop where
  keys : table'.processes.keys = table.processes.keys
  find : ∀ pid, table'.processes.find? pid
    = (table.processes.find? pid).map (handedOver selected pid)
  running : table'.running_pid = selected
  invariant : table'.Invariant

namespace Handover

variable {table table' : ProcessTable} {selected pid : ProcessId} {process : ProcessControlBlock}

/-- A process that runs goes on. -/
theorem self (hinv : table.Invariant) (hp : table.processes.find? selected = some process)
    (hrun : process.state = .Running) : Handover table selected table where
  keys := rfl
  running := hinv.running_pid_eq hp hrun
  invariant := hinv
  find pid := by
    cases hpid : table.processes.find? pid with
    | none => rfl
    | some other =>
      rw [Option.map_some, handedOver]
      split_ifs with heq hstate
      · rw [heq, hp] at hpid
        obtain rfl := Option.some.inj hpid
        rw [← hrun]
      · -- Two Running processes would both be `running_pid`.
        exact absurd ((hinv.running_pid_eq hpid hstate).symm.trans (hinv.running_pid_eq hp hrun)) heq
      · rfl

/-- A process is handed the CPU while no process runs. -/
theorem start (hinv : table.Invariant) (hnone : table.running_pid = 0)
    (hp : table.processes.find? selected = some process) (hready : process.state = .Ready) :
    ∃ table', table.transition selected .Running = .ok table' ∧ Handover table selected table' := by
  have hlegal : canTransitionProcessState process.state .Running = true := by
    rw [hready]
    rfl
  have htransition := ProcessTable.transition_of_legal .Running hp nofun hlegal fun _ => .inl hnone
  refine ⟨_, htransition, SortedMap.keys_modify _ _ _, fun pid => ?_, rfl,
    hinv.transition htransition⟩
  refine (ProcessTable.Invariant.find?_setProcess hp _ pid).trans ?_
  by_cases heq : pid = selected
  · rw [if_pos heq, heq, hp, Option.map_some, handedOver, if_pos rfl]
  · rw [if_neg heq]
    cases hpid : table.processes.find? pid with
    | none => rfl
    | some other =>
      have hstate : other.state ≠ .Running := by
        intro hrun
        have hzero := (hinv.running_pid_eq hpid hrun).symm.trans hnone
        exact (hinv.entry hpid).pid_ne hzero
      rw [Option.map_some, handedOver, if_neg heq, if_neg hstate]

/-- The running process gives up the CPU. -/
theorem leave (hinv : table.Invariant) (hp : table.processes.find? pid = some process)
    (hrun : process.state = .Running) :
    ∃ table', table.transition pid .Ready = .ok table' ∧ table'.Invariant
      ∧ table'.running_pid = 0 ∧ table'.processes.keys = table.processes.keys
      ∧ ∀ other, table'.processes.find? other
        = if other = pid then some { process with state := .Ready }
          else table.processes.find? other := by
  have hlegal : canTransitionProcessState process.state .Ready = true := by
    rw [hrun]
    rfl
  have htransition := ProcessTable.transition_of_legal .Ready hp nofun hlegal nofun
  refine ⟨_, htransition, hinv.transition htransition, ?_, SortedMap.keys_modify _ _ _,
    ProcessTable.Invariant.find?_setProcess hp _⟩
  rw [if_neg nofun, if_pos hrun]

/-- The running process is replaced by another one. -/
theorem replace (hinv : table.Invariant) (hp : table.processes.find? pid = some process)
    (hrun : process.state = .Running) {next : ProcessControlBlock}
    (hnext : table.processes.find? selected = some next) (hready : next.state = .Ready) :
    ∃ left table', table.transition pid .Ready = .ok left
      ∧ left.transition selected .Running = .ok table' ∧ Handover table selected table' := by
  have hne : selected ≠ pid := by
    rintro rfl
    rw [hp] at hnext
    obtain rfl := Option.some.inj hnext
    rw [hrun] at hready
    cases hready
  obtain ⟨left, hleft, hinv', hnone, hkeys, hfind⟩ := leave hinv hp hrun
  have hnext' : left.processes.find? selected = some next := by
    rw [hfind, if_neg hne, hnext]
  obtain ⟨table', htable', h⟩ := start hinv' hnone hnext' hready
  refine ⟨left, table', hleft, htable', h.keys.trans hkeys, fun other => ?_, h.running,
    h.invariant⟩
  rw [h.find, hfind]
  split_ifs with heq
  · rw [heq, hp, Option.map_some, Option.map_some, handedOver, handedOver, if_neg (Ne.symm hne),
      if_neg (Ne.symm hne), if_pos hrun, if_neg nofun]
  · rfl

/-- A handover changes nothing about who is runnable. -/
theorem runnable (h : Handover table selected table') (hs : table.Runnable selected) :
    table'.Runnable pid ↔ table.Runnable pid := by
  unfold ProcessTable.Runnable
  rw [h.find]
  cases hp : table.processes.find? pid with
  | none => simp
  | some process =>
    simp only [Option.map_some, Option.some.injEq, exists_eq_left', handedOver]
    by_cases heq : pid = selected
    · obtain ⟨other, hother, hstate⟩ := hs
      rw [← heq, hp] at hother
      obtain rfl := Option.some.inj hother
      simp [heq, hstate]
    · by_cases hrun : process.state = .Running
      · simp [heq, hrun]
      · simp [heq, hrun]

end Handover

/-! ## A selection -/

namespace RoundRobinScheduler

variable {table : ProcessTable} {scheduler : RoundRobinScheduler} {pid selected : ProcessId}
  {rest : List ProcessId}

/-- The cursor, if there is one. -/
def cursor? (scheduler : RoundRobinScheduler) (table : ProcessTable) : Option ProcessId :=
  if (scheduler.cursor table).2 then some (scheduler.cursor table).1 else none

/-- The scheduler rotates the list to behind its cursor. -/
theorem rotateAfterCursor_eq (ids : List ProcessId) :
    rotateAfterCursor ids (scheduler.cursor table).1 (scheduler.cursor table).2
      = Cyclic.rotateAfter ids (scheduler.cursor? table) := by
  rw [rotateAfterCursor, cursor?]
  cases (scheduler.cursor table).2 with
  | false => simp [Cyclic.rotateAfter]
  | true =>
    cases ids with
    | nil => rfl
    | cons id ids => rfl

/-- With a last selection the table has no say in the cursor. -/
theorem cursor?_of_selected (h : scheduler.has_last_selection = true) :
    scheduler.cursor? table = some scheduler.last_selected_pid := by
  rw [cursor?, cursor, h]
  rfl

/-- The processes that the candidates are collected from. -/
def collected (table : ProcessTable) : List ProcessId :=
  if table.hasRunningProcess then table.processIdsInState .Ready ++ [table.running_pid]
  else table.processIdsInState .Ready

/-- The collected processes are the runnable ones. -/
theorem mem_collected (hinv : table.Invariant) : pid ∈ collected table ↔ table.Runnable pid := by
  have hready : pid ∈ table.processIdsInState .Ready ↔ _ := ProcessTable.mem_processIdsInState
  have hrunning := hinv.running pid
  rw [collected, ProcessTable.Runnable]
  split_ifs with hrun
  · have hne := ProcessTable.hasRunningProcess_iff.mp hrun
    rw [List.mem_append, List.mem_singleton, hready]
    constructor
    · rintro (⟨process, hp, hstate⟩ | rfl)
      · exact ⟨process, hp, .inl hstate⟩
      · obtain ⟨process, hp, hstate⟩ := hrunning.mp ⟨rfl, hne⟩
        exact ⟨process, hp, .inr hstate⟩
    · rintro ⟨process, hp, hstate | hstate⟩
      · exact .inl ⟨process, hp, hstate⟩
      · exact .inr (hinv.running_pid_eq hp hstate).symm
  · rw [hready]
    constructor
    · exact fun ⟨process, hp, hstate⟩ => ⟨process, hp, .inl hstate⟩
    · rintro ⟨process, hp, hstate | hstate⟩
      · exact ⟨process, hp, hstate⟩
      · obtain ⟨heq, hne⟩ := hrunning.mpr ⟨process, hp, hstate⟩
        exact absurd (ProcessTable.hasRunningProcess_iff.mpr (heq ▸ hne)) hrun

/-- No process is collected twice. -/
theorem nodup_collected (hinv : table.Invariant) : (collected table).Nodup := by
  have hkeys : table.processes.keys.Nodup := table.processes.keys_sorted.imp ne_of_lt
  have hready := hkeys.sublist (ProcessTable.processIdsInState_sublist .Ready)
  rw [collected]
  split_ifs with hrun
  · refine List.nodup_append.mpr ⟨hready, List.nodup_singleton _, ?_⟩
    rintro pid hpid other hother rfl
    -- A process that is Ready is not the Running one.
    have hne := ProcessTable.hasRunningProcess_iff.mp hrun
    rw [List.mem_singleton] at hother
    obtain ⟨process, hp, hstate⟩ := ProcessTable.mem_processIdsInState.mp hpid
    obtain ⟨process', hp', hstate'⟩ := (hinv.running pid).mp ⟨hother.symm, hother ▸ hne⟩
    rw [hp] at hp'
    obtain rfl := Option.some.inj hp'
    rw [hstate] at hstate'
    cases hstate'
  · exact hready

/-- The candidates are the runnable processes in ascending order. -/
theorem candidates_spec (hinv : table.Invariant) :
    (candidates table).Pairwise (· < ·) ∧ ∀ pid, pid ∈ candidates table ↔ table.Runnable pid := by
  have hperm := List.perm_insertionSort (· ≤ ·) (collected table)
  have hnodup := hperm.nodup_iff.mpr (nodup_collected hinv)
  have heq : candidates table = (collected table).insertionSort (· ≤ ·) :=
    List.destutter_of_isChain _ _ hnodup.isChain
  rw [heq]
  refine ⟨?_, fun pid => hperm.mem_iff.trans (mem_collected hinv)⟩
  exact ((List.pairwise_insertionSort (· ≤ ·) (collected table)).and hnodup).imp
    fun ⟨hle, hne⟩ => lt_of_le_of_ne hle hne

/-- Handing the CPU to a runnable process succeeds. -/
theorem switchTo_eq (scheduler : RoundRobinScheduler) (hinv : table.Invariant)
    (h : table.Runnable selected) :
    ∃ table', switchTo selected (table, scheduler) = (.ok (), (table', scheduler))
      ∧ Handover table selected table' := by
  obtain ⟨process, hp, hstate⟩ := h
  by_cases hrun : table.running_pid = 0
  · have hready : process.state = .Ready := hstate.resolve_right fun hr =>
      (hinv.entry hp).pid_ne ((hinv.running_pid_eq hp hr).symm.trans hrun)
    obtain ⟨table', htable', hover⟩ := Handover.start hinv hrun hp hready
    have hnone : table.hasRunningProcess = false :=
      Bool.eq_false_iff.mpr fun h => ProcessTable.hasRunningProcess_iff.mp h hrun
    refine ⟨table', ?_, hover⟩
    simp only [switchTo, switchTo.transition, Exec.bind_apply, Exec.get_apply, hnone,
      Bool.false_eq_true, if_false, htable', Exec.lift_apply, Exec.modify_apply]
  · have hrunning : table.hasRunningProcess = true := ProcessTable.hasRunningProcess_iff.mpr hrun
    by_cases hself : selected = table.running_pid
    · obtain ⟨running, hp', hr⟩ := (hinv.running selected).mp ⟨hself.symm, hself ▸ hrun⟩
      refine ⟨table, ?_, Handover.self hinv hp' hr⟩
      simp only [switchTo, Exec.bind_apply, Exec.get_apply, hrunning, if_true, hself, ne_eq,
        not_true_eq_false, if_false, Exec.pure_apply]
    · have hready : process.state = .Ready := hstate.resolve_right fun hr =>
        hself (hinv.running_pid_eq hp hr).symm
      obtain ⟨current, hc, hr⟩ := (hinv.running table.running_pid).mp ⟨rfl, hrun⟩
      obtain ⟨left, table', hleft, htable', hover⟩ := Handover.replace hinv hc hr hp hready
      refine ⟨table', ?_, hover⟩
      simp only [switchTo, switchTo.transition, Exec.bind_apply, Exec.get_apply, hrunning, if_true,
        ne_eq, hself, not_false_eq_true, hleft, Exec.lift_apply, Exec.modify_apply, Exec.onError,
        htable']

/-- A selection takes the first runnable process after the cursor. -/
theorem scheduleNext_eq (hinv : table.Invariant)
    (h : Cyclic.rotateAfter (candidates table) (scheduler.cursor? table) = selected :: rest) :
    ∃ table', scheduleNext (table, scheduler) = (.ok selected, (table', ⟨true, selected⟩))
      ∧ Handover table selected table' := by
  have hmem : selected ∈ candidates table := by
    refine (Cyclic.rotateAfter_perm _ (scheduler.cursor? table)).mem_iff.mp ?_
    rw [h]
    exact List.mem_cons_self
  have hrunnable := ((candidates_spec hinv).2 selected).mp hmem
  obtain ⟨table', hswitch, hover⟩ := switchTo_eq scheduler hinv hrunnable
  refine ⟨table', ?_, hover⟩
  rw [← rotateAfterCursor_eq] at h
  simp only [scheduleNext, Exec.bind_apply, Exec.get_apply, h, hswitch, Exec.modify_apply,
    Exec.pure_apply]

/-- Without a runnable process there is nothing to select. -/
theorem scheduleNext_error (h : candidates table = []) :
    scheduleNext (table, scheduler)
      = (.error "Round-robin scheduler has no runnable process", (table, scheduler)) := by
  simp only [scheduleNext, Exec.bind_apply, Exec.get_apply, h, rotateAfterCursor, List.isEmpty_nil,
    Bool.true_or, if_true, Exec.throw_apply]

end RoundRobinScheduler

/-! ## Runs -/

/-- What can happen to a table under a scheduler: a selection, or any call of its methods. -/
inductive SchedulingEvent (W : Type) where
  | scheduleNext
  | call (made : TableCall W)

namespace SchedulingEvent

/-- The event is a decision of the scheduler. -/
def isScheduleNext : SchedulingEvent W → Bool
  | .scheduleNext => true
  | .call _ => false

/-- Events in order, with the PIDs that were selected. -/
def run : List (SchedulingEvent W) → ProcessTable × RoundRobinScheduler →
    List ProcessId × (ProcessTable × RoundRobinScheduler)
  | [], s => ([], s)
  | .scheduleNext :: events, s =>
      match RoundRobinScheduler.scheduleNext s with
      | (.ok pid, s') => (pid :: (run events s').1, (run events s').2)
      | (.error _, s') => run events s'
  | .call made :: events, s => run events ((made.run s.1).2, s.2)

/-- Every event is a selection or a call about a process other than `pid`; so no event creates a
process. -/
def SparesProcess (pid : ProcessId) (events : List (SchedulingEvent W)) : Prop :=
  ∀ made, .call made ∈ events → ∃ other, made.target = some other ∧ other ≠ pid

/-- At every selection the runnable processes are those of `runnable`. -/
def KeepsRunnable (runnable : List ProcessId) (events : List (SchedulingEvent W))
    (start : ProcessTable × RoundRobinScheduler) : Prop :=
  ∀ first rest, events = first ++ .scheduleNext :: rest →
    ∀ pid, pid ∈ runnable ↔ (run first start).2.1.Runnable pid

/-- A call keeps the invariant of the table. -/
theorem invariant_run_call {table : ProcessTable} (hinv : table.Invariant)
    (made : TableCall W) :
    (made.run table).2.Invariant := by
  rcases TableCall.run_change hinv made with ⟨r, table', hmade, hc⟩ | ⟨e, hmade⟩
  · rw [hmade]
    exact hinv.change hc
  · rw [hmade]
    exact hinv

section Waiting

open RoundRobinScheduler

variable {table : ProcessTable} {scheduler : RoundRobinScheduler} {pid : ProcessId}
  {events : List (SchedulingEvent W)}

/-- How many selections the scheduler still owes: one fewer than it may take without `pid`. Before
the first selection the cursor is not settled, so nothing better than the table's size is known. -/
def Due (keys : List ProcessId) (scheduler : RoundRobinScheduler) (pid : ProcessId) (k : ℕ) : Prop :=
  if scheduler.has_last_selection then
    Cyclic.waiting keys (some scheduler.last_selected_pid) pid < k
  else keys.length ≤ k

/-- A process is due after as many decisions as there are processes. -/
theorem due_length (h : pid ∈ table.processes.keys) :
    Due table.processes.keys scheduler pid table.processes.keys.length := by
  rw [Due]
  split_ifs
  · exact Cyclic.waiting_lt_length h
  · exact le_rfl

/-- A process that is due waits for fewer others than decisions are left. -/
theorem Due.waiting_lt {k : ℕ} (h : Due table.processes.keys scheduler pid k)
    (hmem : pid ∈ table.processes.keys) :
    Cyclic.waiting table.processes.keys (scheduler.cursor? table) pid < k := by
  rw [Due] at h
  split_ifs at h with hlast
  · rw [cursor?_of_selected hlast]
    exact h
  · exact lt_of_lt_of_le (Cyclic.waiting_lt_length hmem) h

/-- A runnable process is in the table. -/
theorem runnable_mem_keys (h : table.Runnable pid) : pid ∈ table.processes.keys := by
  obtain ⟨process, hp, -⟩ := h
  rw [SortedMap.mem_keys_iff, hp]
  rfl

/-- A process that is owed at most `k` selections is among the next `k`. -/
theorem mem_selected_of_due (hinv : table.Invariant) (hrun : table.Runnable pid)
    (hspare : SparesProcess pid events) {k : ℕ} (hdue : Due table.processes.keys scheduler pid k)
    (hcount : k ≤ events.countP isScheduleNext) :
    pid ∈ (run events (table, scheduler)).1.take k := by
  have hkey := runnable_mem_keys hrun
  have hpos : 0 < k := lt_of_le_of_lt (Nat.zero_le _) (hdue.waiting_lt hkey)
  induction events generalizing table scheduler k with
  | nil => exact absurd (lt_of_lt_of_le hpos hcount) (lt_irrefl 0)
  | cons event events ih =>
    have hspare' : SparesProcess pid events :=
      fun made hmade => hspare made (List.mem_cons_of_mem _ hmade)
    cases event with
    | call made =>
      -- The cursor stays, and so do `pid` and the table's keys.
      obtain ⟨other, htarget, hne⟩ := hspare made List.mem_cons_self
      have hframe : (made.run table).2.processes.find? pid = table.processes.find? pid ∧ _ :=
        TableCall.run_target htarget hne.symm
      obtain ⟨hfind, hkeys⟩ := hframe
      have hinv' := invariant_run_call hinv made
      have hrun' : (made.run table).2.Runnable pid := by
        rw [ProcessTable.Runnable, hfind]
        exact hrun
      refine ih hinv' hrun' hspare' (hkeys.symm ▸ hdue) hcount (hkeys.symm ▸ hkey) hpos
    | scheduleNext =>
      have hspec := candidates_spec hinv
      have hmem := (hspec.2 pid).mpr hrun
      have hwaiting := hdue.waiting_lt hkey
      cases hrotate : Cyclic.rotateAfter (candidates table) (scheduler.cursor? table) with
      | nil =>
        have hperm := Cyclic.rotateAfter_perm (candidates table) (scheduler.cursor? table)
        rw [hrotate] at hperm
        exact absurd (hperm.mem_iff.mpr hmem) List.not_mem_nil
      | cons selected rest =>
        obtain ⟨table', hschedule, hover⟩ := scheduleNext_eq hinv hrotate
        obtain ⟨k, rfl⟩ : ∃ n, k = n + 1 := ⟨k - 1, by omega⟩
        simp only [run, hschedule, List.take_succ_cons]
        by_cases heq : pid = selected
        · exact heq ▸ List.mem_cons_self
        · refine List.mem_cons_of_mem _ ?_
          -- Another process was selected on the way to `pid`.
          have hbetween := Cyclic.between_of_rotateAfter hspec.1 hrotate hmem heq
          have hselected : table.Runnable selected := by
            have hperm := Cyclic.rotateAfter_perm (candidates table) (scheduler.cursor? table)
            rw [hrotate] at hperm
            exact (hspec.2 _).mp (hperm.mem_iff.mp List.mem_cons_self)
          have hlt := Cyclic.waiting_lt hbetween (runnable_mem_keys hselected)
          have hdue' : Due table'.processes.keys ⟨true, selected⟩ pid k := by
            rw [Due, if_pos rfl, hover.keys]
            exact Nat.lt_of_lt_of_le hlt (Nat.le_of_lt_succ hwaiting)
          have hkey' : pid ∈ table'.processes.keys := hover.keys ▸ hkey
          have hcount' : k ≤ events.countP isScheduleNext := by
            rw [List.countP_cons_of_pos rfl] at hcount
            omega
          exact ih hover.invariant ((hover.runnable hselected).mpr hrun) hspare' hdue' hcount' hkey'
            (lt_of_le_of_lt (Nat.zero_le _) (hdue'.waiting_lt hkey'))

end Waiting

section Rotation

open RoundRobinScheduler

variable {table : ProcessTable} {scheduler : RoundRobinScheduler} {runnable : List ProcessId}
  {events : List (SchedulingEvent W)}

/-- The candidates are the runnable processes in order. -/
theorem candidates_eq (hinv : table.Invariant) (hsorted : runnable.Pairwise (· < ·))
    (h : ∀ pid, pid ∈ runnable ↔ table.Runnable pid) : candidates table = runnable := by
  have hspec := candidates_spec hinv
  exact hspec.1.eq_of_mem_iff hsorted fun pid => (hspec.2 pid).trans (h pid).symm

/-- What keeps the processes runnable keeps them after a call. -/
theorem KeepsRunnable.tail_call {made : TableCall W}
    (h : KeepsRunnable runnable (.call made :: events) (table, scheduler)) :
    KeepsRunnable runnable events ((made.run table).2, scheduler) :=
  fun first rest heq => h (.call made :: first) rest (by rw [heq]; rfl)

/-- What keeps the processes runnable keeps them after a decision. -/
theorem KeepsRunnable.tail_scheduleNext {pid : ProcessId}
    {s' : ProcessTable × RoundRobinScheduler}
    (h : KeepsRunnable runnable (.scheduleNext :: events) (table, scheduler))
    (hs : RoundRobinScheduler.scheduleNext (table, scheduler) = (.ok pid, s')) : KeepsRunnable runnable events s' := by
  intro first rest heq pid
  have hnext := h (.scheduleNext :: first) rest (by rw [heq]; rfl) pid
  simp only [run, hs] at hnext
  exact hnext

/-- Up to one round, the selections follow the candidates rotated after the cursor. -/
theorem selected_eq_take (hsorted : runnable.Pairwise (· < ·)) (hinv : table.Invariant)
    (hkeeps : KeepsRunnable runnable events (table, scheduler))
    (hcount : events.countP isScheduleNext ≤ runnable.length) :
    ∃ cursor, (scheduler.has_last_selection = true → cursor = some scheduler.last_selected_pid)
      ∧ (run events (table, scheduler)).1
        = (Cyclic.rotateAfter runnable cursor).take (events.countP isScheduleNext) := by
  -- On the events; a selection moves the cursor behind the process selected, which is the rest of
  -- the rotation.
  induction events generalizing table scheduler with
  | nil => exact ⟨_, fun _ => rfl, (List.take_zero).symm⟩
  | cons event events ih =>
    cases event with
    | call made =>
      rw [List.countP_cons_of_neg (by simp [isScheduleNext])] at hcount ⊢
      exact ih (invariant_run_call hinv made) hkeeps.tail_call hcount
    | scheduleNext =>
      rw [List.countP_cons_of_pos rfl] at hcount ⊢
      have hcandidates := candidates_eq hinv hsorted (hkeeps [] events rfl)
      cases hrotate : Cyclic.rotateAfter runnable (scheduler.cursor? table) with
      | nil =>
        have hlength := (Cyclic.rotateAfter_perm runnable (scheduler.cursor? table)).length_eq
        rw [hrotate, List.length_nil] at hlength
        omega
      | cons selected rest =>
        obtain ⟨table', hschedule, hover⟩ := scheduleNext_eq hinv (hcandidates.symm ▸ hrotate)
        obtain ⟨cursor, hcursor, hrest⟩ := ih hover.invariant (hkeeps.tail_scheduleNext hschedule)
          (Nat.le_of_succ_le hcount)
        refine ⟨scheduler.cursor? table, fun h => cursor?_of_selected h, ?_⟩
        have hlength := (Cyclic.rotateAfter_perm runnable (scheduler.cursor? table)).length_eq
        rw [hrotate, List.length_cons] at hlength
        rw [hcursor rfl, Cyclic.rotateAfter_next hsorted hrotate,
          List.take_append_of_le_length (by omega)] at hrest
        simp only [run, hschedule, hrest, hrotate, List.take_succ_cons]

/-- Rotating to behind a cursor is a rotation. -/
theorem exists_rotate (ids : List ProcessId) (cursor : Option ProcessId) :
    ∃ k, Cyclic.rotateAfter ids cursor = ids.rotate k := by
  cases cursor with
  | none => exact ⟨0, (List.rotate_zero ids).symm⟩
  | some c =>
    have hsplit := List.takeWhile_append_dropWhile (p := (· ≤ c)) (l := ids)
    have hrotate := List.rotate_append_length_eq (ids.takeWhile (· ≤ c)) (ids.dropWhile (· ≤ c))
    rw [hsplit] at hrotate
    exact ⟨_, hrotate.symm⟩

/-- Selections alone change nothing about who is runnable. -/
theorem keepsRunnable_replicate (hinv : table.Invariant)
    (h : ∀ pid, pid ∈ runnable ↔ table.Runnable pid) (n : ℕ) :
    KeepsRunnable runnable (List.replicate n (.scheduleNext : SchedulingEvent W))
      (table, scheduler) := by
  -- A selection changes which process is running, never which are runnable.
  induction n generalizing table scheduler with
  | zero =>
    intro first rest heq
    exact absurd heq.symm (List.append_ne_nil_of_right_ne_nil _ nofun)
  | succ n ih =>
    intro first rest heq pid
    cases first with
    | nil => exact h pid
    | cons event first =>
      obtain ⟨rfl, htail⟩ := List.cons.inj heq
      have hspec := candidates_spec hinv
      have hperm := Cyclic.rotateAfter_perm (candidates table) (scheduler.cursor? table)
      cases hrotate : Cyclic.rotateAfter (candidates table) (scheduler.cursor? table) with
      | nil =>
        rw [hrotate] at hperm
        simp only [run, scheduleNext_error hperm.symm.eq_nil]
        exact ih hinv h first rest htail pid
      | cons selected others =>
        obtain ⟨table', hschedule, hover⟩ := scheduleNext_eq hinv hrotate
        rw [hrotate] at hperm
        have hselected := (hspec.2 selected).mp (hperm.mem_iff.mp List.mem_cons_self)
        simp only [run, hschedule]
        refine ih hover.invariant (fun pid => ?_) first rest htail pid
        rw [hover.runnable hselected]
        exact h pid

end Rotation

/-- Round robin waits are bounded. Along any run whose other events are about other processes, a
runnable process is among the first `N` selections; and `n` selections while the runnable processes
are the same `n` ones select each of them once, in cyclic ascending order. -/
theorem round_robin_bounded_waiting {table : ProcessTable} (hinv : table.Invariant)
    (scheduler : RoundRobinScheduler) (events : List (SchedulingEvent W)) :
    (∀ pid, table.Runnable pid → SparesProcess pid events →
      table.size ≤ events.countP isScheduleNext →
      pid ∈ (run events (table, scheduler)).1.take table.size)
    ∧ ∀ runnable : List ProcessId, runnable.Pairwise (· < ·) →
      KeepsRunnable runnable events (table, scheduler) →
      events.countP isScheduleNext = runnable.length →
      ∃ k, (run events (table, scheduler)).1 = runnable.rotate k := by
  have hsize : table.size = table.processes.keys.length := (List.length_map _).symm
  refine ⟨fun pid hrun hspare hcount => ?_, fun runnable hsorted hkeeps hcount => ?_⟩
  · rw [hsize] at hcount ⊢
    exact mem_selected_of_due hinv hrun hspare (due_length (runnable_mem_keys hrun)) hcount
  · obtain ⟨cursor, -, hselected⟩ := selected_eq_take hsorted hinv hkeeps hcount.le
    obtain ⟨k, hk⟩ := exists_rotate runnable cursor
    refine ⟨k, ?_⟩
    rw [hselected, hk, hcount, List.take_of_length_le (by rw [List.length_rotate])]

/-- A context of the Kernel, without User code. -/
def idleContext : ProcessContext where
  pid := 0
  registers := fun _ => 0
  flags := 0
  pc := 0
  sp := 4000
  privilege := .kernel
  has_user_code_range := false
  user_code_begin := 0
  user_code_end_exclusive := 0
  user_stack_begin := 2048
  user_stack_end_exclusive := 4000
  kernel_stack_pointer := 4000

/-- A fresh table with two processes. -/
def twoProcesses : ProcessTable :=
  let calls : List (TableCall Unit) :=
    [.createProcessFromContext idleContext, .createProcessFromContext idleContext]
  (TableCall.runCalls calls .empty).2

theorem invariant_twoProcesses : twoProcesses.Invariant :=
  (TableCall.runCalls_spec _ .empty).1

/-- Two decisions select both processes. -/
theorem round_robin_bounded_waiting_two :
    let events : List (SchedulingEvent Unit) := [.scheduleNext, .scheduleNext]
    2 ∈ (run events (twoProcesses, .initial)).1
      ∧ ∃ k, (run events (twoProcesses, .initial)).1 = [1, 2].rotate k := by
  intro events
  have hinv := invariant_twoProcesses
  have hready : RoundRobinScheduler.candidates twoProcesses = [1, 2] := by decide +kernel
  have hsize : twoProcesses.size = 2 := by decide +kernel
  generalize twoProcesses = table at hinv hready hsize ⊢
  have hrunnable : ∀ pid, pid ∈ [1, 2] ↔ table.Runnable pid :=
    hready ▸ (RoundRobinScheduler.candidates_spec hinv).2
  have hkeeps : KeepsRunnable [1, 2] events (table, .initial) :=
    keepsRunnable_replicate hinv hrunnable 2
  have hboth := round_robin_bounded_waiting hinv .initial events
  have hfirst := hboth.1 2 ((hrunnable 2).mp (by decide)) (by simp [SparesProcess, events])
    (by rw [hsize]; rfl)
  exact ⟨List.mem_of_mem_take hfirst, hboth.2 [1, 2] (by decide) hkeeps rfl⟩

end SchedulingEvent

end ZeroCpu.Kernel
