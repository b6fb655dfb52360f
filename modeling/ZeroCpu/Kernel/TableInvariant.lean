import ZeroCpu.Kernel.ProcessTable

/-!
# The process table's invariant

Reference: `src/kernel/ProcessTable.cpp`, `src/kernel/ProcessControlBlock.cpp`.

`running_pid` repeats what the states of all processes say, and the table's methods update it by
hand after changing a process in place. `TableCall.run` is these methods statement by statement,
where a throw keeps what has been assigned so far. They never throw after an assignment, so each is
one check followed by one change (`TableChange`), and every change keeps the invariant.
-/

namespace ZeroCpu.Kernel

open Library

variable {W : Type}

/-! ## Methods of a process -/

namespace ProcessControlBlock

/-- `ProcessControlBlock::replaceContext`, statement by statement. -/
def runReplaceContext (context : ProcessContext) : Exec Str ProcessControlBlock Unit := do
  let process ← Exec.get
  Exec.lift (reject (process.state = .Terminated) "Cannot update a terminated process context")
  Exec.lift (validateProcessContext context)
  Exec.lift (reject (context.pid ≠ process.context.pid) "Process context PID mismatch")
  Exec.modify fun process => { process with context := context }

/-- `ProcessControlBlock::replaceRuntimeState`, statement by statement. -/
def runReplaceRuntimeState (context : ProcessContext) (memory : Memory) :
    Exec Str ProcessControlBlock Unit := do
  let process ← Exec.get
  Exec.lift (reject (process.state = .Terminated) "Cannot update a terminated process state")
  Exec.lift (validateProcessContext context)
  Exec.lift (reject (context.pid ≠ process.context.pid) "Process runtime state PID mismatch")
  let staged ← Exec.lift (process.addressSpace.replaceMemory memory)
  Exec.modify fun process => { process with context := context }
  Exec.modify fun process => { process with addressSpace := staged }

/-- `ProcessControlBlock::transitionTo`, statement by statement. -/
def runTransitionTo (state : ProcessState) : Exec Str ProcessControlBlock Unit := do
  let process ← Exec.get
  Exec.lift (reject (state = .Terminated) "Use terminate() to terminate a process")
  Exec.lift (reject (¬ canTransitionProcessState process.state state)
    ("Invalid process state transition: " ++ processStateToString process.state ++ " -> "
      ++ processStateToString state))
  Exec.modify fun process => { process with state := state }

/-- `ProcessControlBlock::terminate`, statement by statement. -/
def runTerminate (exitCode : Word) (kind : ProcessTerminationKind) (message : Str) :
    Exec Str ProcessControlBlock Unit := do
  let process ← Exec.get
  Exec.lift (reject (process.state = .Terminated) "Process is already terminated")
  Exec.lift (reject (¬ canTransitionProcessState process.state .Terminated)
    "Process cannot transition to Terminated")
  Exec.modify fun process => { process with state := .Terminated }
  Exec.modify fun process => { process with hasExitCode := true }
  Exec.modify fun process => { process with exitCode := exitCode }
  Exec.modify fun process => { process with terminationKind := kind }
  Exec.modify fun process => { process with terminationMessage := message }

/-- A method that only checks before it assigns. -/
def assigning (f : ProcessControlBlock → Except Str ProcessControlBlock) :
    Exec Str ProcessControlBlock Unit := Exec.assign fun process => (f process).map ((), ·)

/-- Replacing a context assigns once, at its end. -/
theorem runReplaceContext_eq (context : ProcessContext) :
    runReplaceContext context = assigning (·.replaceContext context) := by
  funext process
  simp only [runReplaceContext, replaceContext, assigning, Exec.assign, Exec.bind_apply,
    Exec.get_apply, Exec.lift_apply]
  rcases reject (process.state = .Terminated) _ with e | _
  · rfl
  · rcases validateProcessContext context with e | _
    · rfl
    · simp only [ok_bind]
      rcases reject (context.pid ≠ process.context.pid) _ with e | _ <;> rfl

/-- Replacing a runtime state assigns once, at its end. -/
theorem runReplaceRuntimeState_eq (context : ProcessContext) (memory : Memory) :
    runReplaceRuntimeState context memory = assigning (·.replaceRuntimeState context memory) := by
  funext process
  simp only [runReplaceRuntimeState, replaceRuntimeState, assigning, Exec.assign, Exec.bind_apply,
    Exec.get_apply, Exec.lift_apply]
  rcases reject (process.state = .Terminated) _ with e | _
  · rfl
  · rcases validateProcessContext context with e | _
    · rfl
    · simp only [ok_bind]
      rcases reject (context.pid ≠ process.context.pid) _ with e | _
      · rfl
      · simp only [ok_bind]
        rcases process.addressSpace.replaceMemory memory with e | _ <;> rfl

/-- A transition assigns once, at its end. -/
theorem runTransitionTo_eq (state : ProcessState) :
    runTransitionTo state = assigning (·.transitionTo state) := by
  funext process
  simp only [runTransitionTo, transitionTo, assigning, Exec.assign, Exec.bind_apply,
    Exec.get_apply, Exec.lift_apply]
  rcases reject (state = .Terminated) _ with e | _
  · rfl
  · simp only [ok_bind]
    rcases reject (¬ canTransitionProcessState process.state state) _ with e | _ <;> rfl

/-- A termination assigns once, at its end. -/
theorem runTerminate_eq (exitCode : Word) (kind : ProcessTerminationKind) (message : Str) :
    runTerminate exitCode kind message = assigning (·.terminate exitCode kind message) := by
  funext process
  simp only [runTerminate, terminate, assigning, Exec.assign, Exec.bind_apply, Exec.get_apply,
    Exec.lift_apply]
  rcases reject (process.state = .Terminated) _ with e | _
  · rfl
  · simp only [ok_bind]
    rcases reject (¬ canTransitionProcessState process.state .Terminated) _ with e | _ <;> rfl

end ProcessControlBlock

/-! ## Methods of the table -/

namespace ProcessTable

/-- Call a method of a process in place: what it has assigned stays when it throws. -/
def atProcess (pid : ProcessId) (method : Exec Str ProcessControlBlock Unit) :
    Exec Str ProcessTable Unit := fun table =>
  match table.process pid with
  | .error e => (.error e, table)
  | .ok process => ((method process).1, table.setProcess pid (method process).2)

/-- `running_pid_ = pid`. -/
def setRunning (pid : ProcessId) : Exec Str ProcessTable Unit :=
  Exec.modify fun table => { table with running_pid := pid }

/-- `processes_.emplace(pid, process)`, its check and `commitAllocatedProcessId`. -/
def runInsert (pid : ProcessId) (process : ProcessControlBlock) :
    Exec Str ProcessTable (Option ProcessId) := do
  let table ← Exec.get
  Exec.modify fun table => { table with processes := table.processes.emplace pid process }
  Exec.lift (reject (table.processes.find? pid).isSome "Process table PID collision")
  Exec.modify fun table =>
    { table with next_pid := if pid = processIdMax then 0 else pid + 1 }
  pure (some pid)

/-- `ProcessTable::transition`, statement by statement. -/
def runTransition (pid : ProcessId) (state : ProcessState) : Exec Str ProcessTable Unit := do
  Exec.lift (reject (state = .Terminated) "Use terminate() to terminate a process")
  let table ← Exec.get
  let process ← Exec.lift (table.process pid)
  Exec.lift (reject (state = .Running ∧ table.running_pid ≠ 0 ∧ table.running_pid ≠ pid)
    "Another process is already Running")
  atProcess pid (ProcessControlBlock.runTransitionTo state)
  if process.state = .Running ∧ state ≠ .Running then setRunning 0 else pure ()
  if state = .Running then setRunning pid else pure ()

/-- `process = std::move(staged)`, and no process is Running when this one was. -/
def runReplace (pid : ProcessId) (process staged : ProcessControlBlock) :
    Exec Str ProcessTable Unit := do
  Exec.modify fun table => table.setProcess pid staged
  if process.state = .Running then setRunning 0 else pure ()

end ProcessTable

/-- The calls that change a process table. -/
inductive TableCall (W : Type) where
  | createProcessFromContext (context : ProcessContext)
  | createProcessFromCpu (cpu : CPU W)
  | createProcess (image : ProcessImage)
  | updateContext (pid : ProcessId) (context : ProcessContext)
  | updateRuntimeState (pid : ProcessId) (context : ProcessContext) (memory : Memory)
  | transition (pid : ProcessId) (state : ProcessState)
  | terminateAsIs (pid : ProcessId) (exitCode : Word)
  | terminateContext (pid : ProcessId) (finalContext : ProcessContext) (exitCode : Word)
  | terminate (pid : ProcessId) (finalContext : ProcessContext) (finalMemory : Memory)
      (exitCode : Word)
  | faultContext (pid : ProcessId) (finalContext : ProcessContext) (exitCode : Word)
      (message : Str)
  | fault (pid : ProcessId) (finalContext : ProcessContext) (finalMemory : Memory)
      (exitCode : Word) (message : Str)

namespace TableCall

open ProcessTable ProcessControlBlock

/-- `terminate` and `fault` with a final state: the process is changed in a copy. -/
def runFinish (pid : ProcessId) (exitCode : Word) (kind : ProcessTerminationKind) (message : Str)
    (final : ProcessControlBlock → Except Str ProcessControlBlock) :
    Exec Str ProcessTable (Option ProcessId) := do
  let table ← Exec.get
  let process ← Exec.lift (table.process pid)
  let staged ← Exec.lift (final process)
  let staged ← Exec.lift (staged.terminate exitCode kind message)
  runReplace pid process staged
  pure none

/-- A call, statement by statement; a `createProcess` returns the new PID. -/
def run : TableCall W → Exec Str ProcessTable (Option ProcessId)
  | .createProcessFromContext context => do
      let table ← Exec.get
      let pid ← Exec.lift table.requireNextProcessId
      let context := { context with pid := pid }
      Exec.lift (validateProcessContext context)
      let addressSpace ← Exec.lift ProcessAddressSpace.new
      let process ← Exec.lift (ProcessControlBlock.make context addressSpace .Ready)
      runInsert pid process
  | .createProcessFromCpu cpu => do
      let table ← Exec.get
      let pid ← Exec.lift table.requireNextProcessId
      let context ← Exec.lift (captureProcessContext pid cpu)
      let addressSpace ← Exec.lift (ProcessAddressSpace.ofMemory cpu.core.state.memory)
      let process ← Exec.lift (ProcessControlBlock.make context addressSpace .Ready)
      runInsert pid process
  | .createProcess image => do
      let table ← Exec.get
      let pid ← Exec.lift table.requireNextProcessId
      let context ← Exec.lift (contextFromImage pid image)
      let addressSpace ← Exec.lift (ProcessAddressSpace.ofImage image)
      let process ← Exec.lift (ProcessControlBlock.make context addressSpace .Ready)
      runInsert pid process
  | .updateContext pid context => do
      atProcess pid (runReplaceContext context)
      pure none
  | .updateRuntimeState pid context memory => do
      atProcess pid (runReplaceRuntimeState context memory)
      pure none
  | .transition pid state => do
      runTransition pid state
      pure none
  | .terminateAsIs pid exitCode => do
      let table ← Exec.get
      let process ← Exec.lift (table.process pid)
      atProcess pid (runTerminate exitCode .NormalExit [])
      if process.state = .Running then setRunning 0 else pure ()
      pure none
  | .terminateContext pid finalContext exitCode =>
      runFinish pid exitCode .NormalExit [] (·.replaceFinalContext finalContext)
  | .terminate pid finalContext finalMemory exitCode =>
      runFinish pid exitCode .NormalExit [] (·.replaceFinalState finalContext finalMemory)
  | .faultContext pid finalContext exitCode message =>
      runFinish pid exitCode .CpuFault message (·.replaceFinalContext finalContext)
  | .fault pid finalContext finalMemory exitCode message =>
      runFinish pid exitCode .CpuFault message (·.replaceFinalState finalContext finalMemory)

/-- A call as one function of the table. -/
def apply (table : ProcessTable) : TableCall W → Except Str (Option ProcessId × ProcessTable)
  | .createProcessFromContext context => created (table.createProcessFromContext context)
  | .createProcessFromCpu cpu => created (table.createProcessFromCpu cpu)
  | .createProcess image => created (table.createProcess image)
  | .updateContext pid context => changed (table.updateContext pid context)
  | .updateRuntimeState pid context memory => changed (table.updateRuntimeState pid context memory)
  | .transition pid state => changed (table.transition pid state)
  | .terminateAsIs pid exitCode => changed (table.terminateAsIs pid exitCode)
  | .terminateContext pid finalContext exitCode =>
      changed (table.terminateContext pid finalContext exitCode)
  | .terminate pid finalContext finalMemory exitCode =>
      changed (table.terminate pid finalContext finalMemory exitCode)
  | .faultContext pid finalContext exitCode message =>
      changed (table.faultContext pid finalContext exitCode message)
  | .fault pid finalContext finalMemory exitCode message =>
      changed (table.fault pid finalContext finalMemory exitCode message)
where
  created (r : Except Str (ProcessId × ProcessTable)) := r.map fun p => (some p.1, p.2)
  changed (r : Except Str ProcessTable) := r.map fun table => (none, table)

end TableCall

/-! ## A throw leaves the table as it was -/

namespace ProcessTable

/-- A process is returned exactly when the table has it. -/
theorem process_eq_ok {table : ProcessTable} {pid : ProcessId} {process : ProcessControlBlock} :
    table.process pid = .ok process ↔ table.processes.find? pid = some process := by
  unfold ProcessTable.process
  cases table.processes.find? pid <;> simp

/-- Putting a process back changes nothing. -/
theorem setProcess_same {table : ProcessTable} {pid : ProcessId} {process : ProcessControlBlock}
    (h : table.process pid = .ok process) : table.setProcess pid process = table := by
  rw [setProcess, SortedMap.modify_same _ (process_eq_ok.mp h)]

/-- An assignment to a process is an assignment to the table. -/
theorem atProcess_assigning (pid : ProcessId)
    (f : ProcessControlBlock → Except Str ProcessControlBlock) (table : ProcessTable) :
    atProcess pid (ProcessControlBlock.assigning f) table
      = match (do
          let process ← table.process pid
          f process : Except Str ProcessControlBlock) with
        | .ok process => (.ok (), table.setProcess pid process)
        | .error e => (.error e, table) := by
  unfold atProcess
  cases hp : table.process pid with
  | error e => rfl
  | ok process =>
    simp only [ProcessControlBlock.assigning, Exec.assign, ok_bind]
    cases f process with
    | error e => exact congrArg (_, ·) (setProcess_same hp)
    | ok updated => rfl

/-- An insertion assigns once, at its end. -/
theorem runInsert_eq (pid : ProcessId) (process : ProcessControlBlock) (table : ProcessTable) :
    runInsert pid process table
      = Exec.assign (fun table => (table.insert pid process).map fun p => (some p.1, p.2)) table := by
  simp only [runInsert, insert, Exec.assign, Exec.bind_apply, Exec.get_apply, Exec.lift_apply,
    Exec.modify_apply]
  cases hfind : table.processes.find? pid with
  | none => rfl
  | some other =>
    have hsame := table.processes.emplace_of_mem process (by rw [hfind]; rfl)
    simp only [Option.isSome_some, reject, if_true]
    exact congrArg (_, ·) (by rw [hsame])

/-- A transition of a process assigns once, at its end. -/
theorem runTransition_eq (pid : ProcessId) (state : ProcessState) (table : ProcessTable) :
    runTransition pid state table
      = Exec.assign (fun table => (table.transition pid state).map ((), ·)) table := by
  simp only [runTransition, transition, ProcessControlBlock.runTransitionTo_eq, Exec.assign,
    Exec.bind_apply, Exec.get_apply, Exec.lift_apply, atProcess_assigning]
  rcases reject (state = .Terminated) _ with e | _
  · rfl
  · simp only [ok_bind]
    cases hp : table.process pid with
    | error e => rfl
    | ok process =>
      simp only [ok_bind]
      rcases reject (state = .Running ∧ table.running_pid ≠ 0 ∧ table.running_pid ≠ pid) _ with e | _
      · rfl
      · simp only [hp, ok_bind]
        rcases process.transitionTo state with e | updated
        · rfl
        · by_cases hstate : state = .Running
          · simp only [hstate, ne_eq, not_true_eq_false, and_false, if_false, if_true]
            rfl
          · simp only [hstate, ne_eq, not_false_eq_true, and_true, if_false]
            split_ifs <;> rfl

/-- Replacing a process clears the running process when it was that one. -/
theorem runReplace_eq (pid : ProcessId) (process staged : ProcessControlBlock)
    (table : ProcessTable) :
    runReplace pid process staged table
      = (.ok (), { table.setProcess pid staged with
          running_pid := if process.state = .Running then 0 else table.running_pid }) := by
  simp only [runReplace, Exec.bind_apply, Exec.modify_apply]
  split_ifs <;> rfl

end ProcessTable

namespace TableCall

open ProcessTable ProcessControlBlock

/-- A finish assigns once, at its end. -/
theorem runFinish_eq (pid : ProcessId) (exitCode : Word) (kind : ProcessTerminationKind)
    (message : Str) (final : ProcessControlBlock → Except Str ProcessControlBlock)
    (table : ProcessTable) :
    runFinish pid exitCode kind message final table
      = Exec.assign (fun table => apply.changed do
          let process ← table.process pid
          let staged ← final process
          let staged ← staged.terminate exitCode kind message
          pure { table.setProcess pid staged with
            running_pid := if process.state = .Running then 0 else table.running_pid }) table := by
  simp only [runFinish, apply.changed, Exec.assign, Exec.bind_apply, Exec.get_apply,
    Exec.lift_apply, runReplace_eq]
  rcases table.process pid with e | process
  · rfl
  · simp only [ok_bind]
    rcases final process with e | staged
    · rfl
    · simp only [ok_bind]
      rcases staged.terminate exitCode kind message with e | staged <;> rfl

/-- Every call is one check followed by one assignment. -/
theorem run_eq (call : TableCall W) (table : ProcessTable) :
    call.run table = Exec.assign (fun table => apply table call) table := by
  cases call with
  -- A call computes everything that may throw before it assigns, so either every step succeeds and
  -- the last one assigns, or nothing was assigned.
  | createProcessFromContext context =>
    simp only [run, apply, apply.created, ProcessTable.createProcessFromContext, Exec.assign, Exec.bind_apply,
      Exec.get_apply, Exec.lift_apply, runInsert_eq]
    rcases table.requireNextProcessId with e | pid
    · rfl
    · simp only [ok_bind]
      rcases validateProcessContext { context with pid := pid } with e | _
      · rfl
      · simp only [ok_bind]
        rcases ProcessAddressSpace.new with e | space
        · rfl
        · simp only [ok_bind]
          rcases ProcessControlBlock.make { context with pid := pid } space .Ready with e | process
          <;> rfl
  | createProcessFromCpu cpu =>
    simp only [run, apply, apply.created, ProcessTable.createProcessFromCpu, Exec.assign, Exec.bind_apply,
      Exec.get_apply, Exec.lift_apply, runInsert_eq]
    rcases table.requireNextProcessId with e | pid
    · rfl
    · simp only [ok_bind]
      rcases captureProcessContext pid cpu with e | context
      · rfl
      · simp only [ok_bind]
        rcases ProcessAddressSpace.ofMemory cpu.core.state.memory with e | space
        · rfl
        · simp only [ok_bind]
          rcases ProcessControlBlock.make context space .Ready with e | process <;> rfl
  | createProcess image =>
    simp only [run, apply, apply.created, ProcessTable.createProcess, Exec.assign, Exec.bind_apply,
      Exec.get_apply, Exec.lift_apply, runInsert_eq]
    rcases table.requireNextProcessId with e | pid
    · rfl
    · simp only [ok_bind]
      rcases contextFromImage pid image with e | context
      · rfl
      · simp only [ok_bind]
        rcases ProcessAddressSpace.ofImage image with e | space
        · rfl
        · simp only [ok_bind]
          rcases ProcessControlBlock.make context space .Ready with e | process <;> rfl
  | updateContext pid context =>
    simp only [run, apply, apply.changed, ProcessTable.updateContext, runReplaceContext_eq, Exec.assign,
      Exec.bind_apply, atProcess_assigning]
    rcases table.process pid with e | process
    · rfl
    · simp only [ok_bind]
      rcases process.replaceContext context with e | updated <;> rfl
  | updateRuntimeState pid context memory =>
    simp only [run, apply, apply.changed, ProcessTable.updateRuntimeState, runReplaceRuntimeState_eq,
      Exec.assign, Exec.bind_apply, atProcess_assigning]
    rcases table.process pid with e | process
    · rfl
    · simp only [ok_bind]
      rcases process.replaceRuntimeState context memory with e | updated <;> rfl
  | transition pid state =>
    simp only [run, apply, apply.changed, Exec.assign, Exec.bind_apply, runTransition_eq]
    rcases table.transition pid state with e | updated <;> rfl
  | terminateAsIs pid exitCode =>
    simp only [run, apply, apply.changed, ProcessTable.terminateAsIs, runTerminate_eq, Exec.assign,
      Exec.bind_apply, Exec.get_apply, Exec.lift_apply, atProcess_assigning]
    cases hp : table.process pid with
    | error e => rfl
    | ok process =>
      simp only [hp, ok_bind]
      rcases process.terminate exitCode .NormalExit [] with e | updated
      · rfl
      · simp only
        split_ifs <;> rfl
  | terminateContext pid finalContext exitCode => exact runFinish_eq _ _ _ _ _ _
  | terminate pid finalContext finalMemory exitCode => exact runFinish_eq _ _ _ _ _ _
  | faultContext pid finalContext exitCode message => exact runFinish_eq _ _ _ _ _ _
  | fault pid finalContext finalMemory exitCode message => exact runFinish_eq _ _ _ _ _ _

/-- A call that throws leaves the table unchanged. -/
theorem run_throw {call : TableCall W} {table table' : ProcessTable} {e : Str}
    (h : call.run table = (.error e, table')) : table' = table := by
  rw [run_eq, Exec.assign] at h
  cases hc : apply table call with
  | error e' => rw [hc] at h; exact (Prod.ext_iff.mp h).2.symm
  | ok p => rw [hc] at h; cases (Prod.ext_iff.mp h).1

/-- A call that returns has assigned what it computed. -/
theorem run_ok {call : TableCall W} {table table' : ProcessTable} {r : Option ProcessId}
    (h : call.run table = (.ok r, table')) : apply table call = .ok (r, table') := by
  rw [run_eq, Exec.assign] at h
  cases hc : apply table call with
  | error e' => rw [hc] at h; cases (Prod.ext_iff.mp h).1
  | ok p =>
    rw [hc] at h
    obtain ⟨hr, rfl⟩ := Prod.ext_iff.mp h
    exact congrArg Except.ok (Prod.ext (Except.ok.inj hr) rfl)

end TableCall

/-! ## What a call can do -/

/-- A process that the table may store under `pid`. -/
structure ProcessControlBlock.WellFormed (process : ProcessControlBlock) (pid : ProcessId) :
    Prop where
  pid_ne : pid ≠ 0
  pid_eq : process.context.pid = pid
  metadata : process.hasExitCode = true ↔ process.state = .Terminated
  context : process.state ≠ .Terminated → validateProcessContext process.context = .ok ()

/-- What a call that returns does to the table: it stores a new process, or it replaces a process
that has not terminated and brings `running_pid` up to date. -/
inductive TableChange (table : ProcessTable) : Option ProcessId → ProcessTable → Prop
  | created {pid : ProcessId} {process : ProcessControlBlock} (next : table.next_pid = pid)
      (ne : pid ≠ 0) (fresh : table.processes.find? pid = none) (wf : process.WellFormed pid)
      (ready : process.state = .Ready) :
      TableChange table (some pid) { table with
        processes := table.processes.emplace pid process
        next_pid := if pid = processIdMax then 0 else pid + 1 }
  | replaced {pid running : ProcessId} {old process : ProcessControlBlock}
      (found : table.processes.find? pid = some old) (live : old.state ≠ .Terminated)
      (wf : old.WellFormed pid → process.WellFormed pid)
      (alone : process.state = .Running → table.running_pid = 0 ∨ table.running_pid = pid)
      (running_eq : running = if process.state = .Running then pid
        else if old.state = .Running then 0 else table.running_pid) :
      TableChange table none { table.setProcess pid process with running_pid := running }

section Changes

variable {table table' : ProcessTable} {pid : ProcessId} {process staged : ProcessControlBlock}

/-- A new process has a valid context and is ready. -/
theorem make_eq_ok {context : ProcessContext} {space : ProcessAddressSpace}
    (h : ProcessControlBlock.make context space .Ready = .ok process) :
    validateProcessContext context = .ok ()
      ∧ process = ⟨context, space, .Ready, false, 0, .NormalExit, []⟩ := by
  simp only [ProcessControlBlock.make, bind_eq_ok] at h
  obtain ⟨_, hv, _, -, hp⟩ := h
  exact ⟨hv, (Except.ok.inj hp).symm⟩

/-- The next process number is never zero. -/
theorem requireNextProcessId_eq_ok (h : table.requireNextProcessId = .ok pid) :
    table.next_pid = pid ∧ pid ≠ 0 := by
  simp only [ProcessTable.requireNextProcessId, bind_eq_ok, reject_eq_ok] at h
  obtain ⟨_, hne, hp⟩ := h
  obtain rfl := Except.ok.inj hp
  exact ⟨rfl, hne⟩

/-- Whatever a process is created from, it is stored the same way. -/
theorem change_of_insert {r : ProcessId × ProcessTable} {context : ProcessContext}
    {space : ProcessAddressSpace} (hpid : table.requireNextProcessId = .ok pid)
    (hcontext : context.pid = pid)
    (hmake : ProcessControlBlock.make context space .Ready = .ok process)
    (h : table.insert pid process = .ok r) : TableChange table (some r.1) r.2 := by
  obtain ⟨hnext, hne⟩ := requireNextProcessId_eq_ok hpid
  obtain ⟨hvalid, rfl⟩ := make_eq_ok hmake
  simp only [ProcessTable.insert, bind_eq_ok, reject_eq_ok] at h
  obtain ⟨_, hfresh, hr⟩ := h
  obtain rfl := Except.ok.inj hr
  refine .created hnext hne ?_ ⟨hne, hcontext, by simp, fun _ => hvalid⟩ rfl
  exact Option.not_isSome_iff_eq_none.mp hfresh

/-- A method that leaves the state of a process alone. -/
theorem change_of_update {new : ProcessControlBlock} (hp : table.process pid = .ok process)
    (hlive : process.state ≠ .Terminated) (hstate : new.state = process.state)
    (hwf : process.WellFormed pid → new.WellFormed pid)
    (hrunning : process.state = .Running → table.running_pid = pid) :
    TableChange table none (table.setProcess pid new) := by
  have hself : table.setProcess pid new
      = { table.setProcess pid new with running_pid := table.running_pid } := rfl
  rw [hself]
  refine .replaced (ProcessTable.process_eq_ok.mp hp) hlive hwf (fun h => .inr (hrunning ?_)) ?_
  · exact hstate.symm.trans h
  · rw [hstate]
    split_ifs with h
    · exact hrunning h
    · rfl

/-- A process that is terminated was not terminated before. -/
theorem terminate_eq_ok {exitCode : Word} {kind : ProcessTerminationKind} {message : Str}
    (h : process.terminate exitCode kind message = .ok staged) :
    process.state ≠ .Terminated
      ∧ staged = { process with
          state := .Terminated, hasExitCode := true, exitCode := exitCode
          terminationKind := kind, terminationMessage := message } := by
  simp only [ProcessControlBlock.terminate, bind_eq_ok, reject_eq_ok] at h
  obtain ⟨_, hlive, _, -, hs⟩ := h
  exact ⟨hlive, (Except.ok.inj hs).symm⟩

/-- A process that terminates, in whatever final state. -/
theorem change_of_terminate {final : ProcessControlBlock} {exitCode : Word}
    {kind : ProcessTerminationKind} {message : Str} (hp : table.process pid = .ok process)
    (hlive : process.state ≠ .Terminated) (hpid : final.context.pid = process.context.pid)
    (hs : final.terminate exitCode kind message = .ok staged) :
    TableChange table none { table.setProcess pid staged with
      running_pid := if process.state = .Running then 0 else table.running_pid } := by
  obtain ⟨-, rfl⟩ := terminate_eq_ok hs
  refine .replaced (ProcessTable.process_eq_ok.mp hp) hlive (fun hwf => ?_) nofun rfl
  exact ⟨hwf.pid_ne, hpid.trans hwf.pid_eq, by simp, fun h => absurd rfl h⟩

end Changes

/-! ## The invariant -/

/-- The table's invariant: the stored processes are well formed under their PIDs, PIDs to come are
new, and `running_pid` is the one Running process. -/
structure ProcessTable.Invariant (table : ProcessTable) : Prop where
  entry : ∀ {pid process}, table.processes.find? pid = some process → process.WellFormed pid
  next : table.next_pid ≠ 0 → ∀ {pid process}, table.processes.find? pid = some process →
    pid < table.next_pid
  running : ∀ pid, (table.running_pid = pid ∧ pid ≠ 0)
    ↔ ∃ process, table.processes.find? pid = some process ∧ process.state = .Running

namespace ProcessTable.Invariant

variable {table table' : ProcessTable} {pid : ProcessId} {process : ProcessControlBlock}

/-- The empty table has the invariant. -/
theorem empty : ProcessTable.empty.Invariant where
  entry h := by cases h
  next _ _ _ h := by cases h
  running pid := ⟨fun ⟨h, hne⟩ => absurd h.symm hne, fun ⟨_, h, _⟩ => by cases h⟩

theorem running_pid_eq (h : table.Invariant) (hp : table.processes.find? pid = some process)
    (hr : process.state = .Running) : table.running_pid = pid :=
  ((h.running pid).mpr ⟨process, hp, hr⟩).1

/-- What the table holds after one process is set. -/
theorem find?_setProcess (hp : table.processes.find? pid = some process)
    (new : ProcessControlBlock) (other : ProcessId) :
    (table.setProcess pid new).processes.find? other
      = if other = pid then some new else table.processes.find? other := by
  rw [setProcess, SortedMap.find?_modify]
  split_ifs with hother
  · rw [hother, hp]
    rfl
  · rfl

/-- Every change keeps the invariant. -/
theorem change {r : Option ProcessId} (h : table.Invariant) (hc : TableChange table r table') :
    table'.Invariant := by
  cases hc with
  | @created pid process next ne fresh wf ready =>
    -- A new entry: the parts of the invariant speak of the new PID or of one that was there before.
    have hfind := fun other => table.processes.find?_emplace process fresh other
    refine ⟨fun {other p} hother => ?_, fun hnext other p hother => ?_, fun other => ?_⟩
    · rw [hfind] at hother
      split_ifs at hother with heq
      · obtain rfl := Option.some.inj hother
        rw [heq]
        exact wf
      · exact h.entry hother
    · have hle : other ≤ pid := by
        rw [hfind] at hother
        split_ifs at hother with heq
        · exact heq.le
        · exact (next ▸ h.next (next ▸ ne) hother).le
      by_cases hmax : pid = processIdMax
      · exact absurd (if_pos hmax) hnext
      · simp only [if_neg hmax]
        exact Nat.lt_succ_of_le hle
    · by_cases heq : other = pid
      · -- The new process is Ready and its PID was not in the table, so it is not the running one.
        subst heq
        constructor
        · intro hrun
          obtain ⟨p, hp, -⟩ := (h.running other).mp hrun
          rw [fresh] at hp
          cases hp
        · rintro ⟨p, hp, hrun⟩
          rw [hfind, if_pos rfl] at hp
          obtain rfl := Option.some.inj hp
          rw [ready] at hrun
          cases hrun
      · simp only [hfind, if_neg heq]
        exact h.running other
  | @replaced pid running old process found live wf alone running_eq =>
    -- A replaced entry keeps its PID; only its state, and with it the running PID, may change.
    have hfind := find?_setProcess found process
    refine ⟨fun {other p} hother => ?_, fun hnext other p hother => ?_, fun other => ?_⟩
    · rw [hfind] at hother
      split_ifs at hother with heq
      · obtain rfl := Option.some.inj hother
        rw [heq]
        exact wf (h.entry found)
      · exact h.entry hother
    · rw [hfind] at hother
      split_ifs at hother with heq
      · rw [heq]
        exact h.next hnext found
      · exact h.next hnext hother
    · have hpid := (h.entry found).pid_ne
      subst running_eq
      by_cases heq : other = pid
      · subst heq
        simp only [hfind, if_true, Option.some.injEq, exists_eq_left']
        constructor
        · rintro ⟨hrun, -⟩
          by_contra hstate
          rw [if_neg hstate] at hrun
          split_ifs at hrun with hold
          · exact hpid hrun.symm
          · obtain ⟨p, hp, hp'⟩ := (h.running other).mp ⟨hrun, hpid⟩
            rw [found] at hp
            obtain rfl := Option.some.inj hp
            exact hold hp'
        · exact fun hstate => ⟨if_pos hstate, hpid⟩
      · simp only [hfind, if_neg heq]
        rw [← h.running other]
        split_ifs with hstate hold
        · -- Nobody else was running.
          rcases alone hstate with hrun | hrun
          · rw [hrun]
            exact ⟨fun h => absurd h.1.symm heq, fun h => absurd h.1.symm h.2⟩
          · rw [hrun]
        · rw [h.running_pid_eq found hold]
          exact ⟨fun h => absurd h.1.symm h.2, fun h => absurd h.1.symm heq⟩
        · rfl

end ProcessTable.Invariant

namespace TableCall

variable {table table' : ProcessTable} {r : Option ProcessId}

/-- A call that creates returns the number of the new process. -/
theorem created_eq_ok {x : Except Str (ProcessId × ProcessTable)}
    (h : apply.created x = .ok (r, table')) : ∃ pid, x = .ok (pid, table') ∧ r = some pid := by
  cases x with
  | error e => cases h
  | ok p =>
    obtain ⟨hr, rfl⟩ := Prod.ext_iff.mp (Except.ok.inj h)
    exact ⟨p.1, rfl, hr.symm⟩

/-- A call that changes returns nothing. -/
theorem changed_eq_ok {x : Except Str ProcessTable} (h : apply.changed x = .ok (r, table')) :
    x = .ok table' ∧ r = none := by
  cases x with
  | error e => cases h
  | ok t =>
    obtain ⟨hr, rfl⟩ := Prod.ext_iff.mp (Except.ok.inj h)
    exact ⟨rfl, hr.symm⟩

/-- Finishing a process with its memory is a termination. -/
theorem change_of_finish {pid : ProcessId} {finalContext : ProcessContext} {finalMemory : Memory}
    {exitCode : Word} {kind : ProcessTerminationKind} {message : Str}
    (h : table.finish pid finalContext finalMemory exitCode kind message = .ok table') :
    TableChange table none table' := by
  simp only [ProcessTable.finish, bind_eq_ok] at h
  obtain ⟨process, hp, final, hfinal, staged, hstaged, htable⟩ := h
  simp only [ProcessControlBlock.replaceFinalState, bind_eq_ok, reject_eq_ok, not_not] at hfinal
  obtain ⟨_, hlive, _, -, _, hpid, _, -, hfinal⟩ := hfinal
  obtain rfl := Except.ok.inj hfinal
  obtain rfl := Except.ok.inj htable
  exact change_of_terminate hp hlive hpid hstaged

/-- Finishing a process without its memory is a termination. -/
theorem change_of_finishContext {pid : ProcessId} {finalContext : ProcessContext} {exitCode : Word}
    {kind : ProcessTerminationKind} {message : Str}
    (h : table.finishContext pid finalContext exitCode kind message = .ok table') :
    TableChange table none table' := by
  simp only [ProcessTable.finishContext, bind_eq_ok] at h
  obtain ⟨process, hp, final, hfinal, staged, hstaged, htable⟩ := h
  simp only [ProcessControlBlock.replaceFinalContext, bind_eq_ok, reject_eq_ok, not_not] at hfinal
  obtain ⟨_, hlive, _, -, _, hpid, hfinal⟩ := hfinal
  obtain rfl := Except.ok.inj hfinal
  obtain rfl := Except.ok.inj htable
  exact change_of_terminate hp hlive hpid hstaged

/-- The context of an image has the given process number. -/
theorem contextFromImage_pid {pid : ProcessId} {image : ProcessImage} {context : ProcessContext}
    (h : contextFromImage pid image = .ok context) : context.pid = pid := by
  simp only [contextFromImage, bind_eq_ok] at h
  obtain ⟨_, -, _, -, hc⟩ := h
  rw [← Except.ok.inj hc]

/-- A captured context has the given process number. -/
theorem captureProcessContext_pid {pid : ProcessId} {cpu : CPU W} {context : ProcessContext}
    (h : captureProcessContext pid cpu = .ok context) : context.pid = pid := by
  simp only [captureProcessContext, captureProcessContextSnapshot, bind_eq_ok] at h
  obtain ⟨_, ⟨_, -, _, -, hs⟩, _, -, hc⟩ := h
  rw [← Except.ok.inj hc, ← Except.ok.inj hs]
  rfl

/-- Every call that returns is one of the two changes. -/
theorem apply_change (hinv : table.Invariant) {call : TableCall W}
    (h : apply table call = .ok (r, table')) : TableChange table r table' := by
  cases call with
  | createProcessFromContext context =>
    obtain ⟨pid, hcall, rfl⟩ := created_eq_ok h
    simp only [ProcessTable.createProcessFromContext, bind_eq_ok] at hcall
    obtain ⟨_, hpid, _, -, _, -, process, hmake, hinsert⟩ := hcall
    exact change_of_insert hpid rfl hmake hinsert
  | createProcessFromCpu cpu =>
    obtain ⟨pid, hcall, rfl⟩ := created_eq_ok h
    simp only [ProcessTable.createProcessFromCpu, bind_eq_ok] at hcall
    obtain ⟨_, hpid, context, hcontext, _, -, process, hmake, hinsert⟩ := hcall
    exact change_of_insert hpid (captureProcessContext_pid hcontext) hmake hinsert
  | createProcess image =>
    obtain ⟨pid, hcall, rfl⟩ := created_eq_ok h
    simp only [ProcessTable.createProcess, bind_eq_ok] at hcall
    obtain ⟨_, hpid, context, hcontext, _, -, process, hmake, hinsert⟩ := hcall
    exact change_of_insert hpid (contextFromImage_pid hcontext) hmake (bind_eq_ok.mpr hinsert)
  | updateContext pid context =>
    obtain ⟨hcall, rfl⟩ := changed_eq_ok h
    simp only [ProcessTable.updateContext, bind_eq_ok] at hcall
    obtain ⟨process, hp, updated, hupdated, htable⟩ := hcall
    simp only [ProcessControlBlock.replaceContext, bind_eq_ok, reject_eq_ok, not_not] at hupdated
    obtain ⟨_, hlive, _, hvalid, _, hpid, hupdated⟩ := hupdated
    obtain rfl := Except.ok.inj hupdated
    obtain rfl := Except.ok.inj htable
    refine change_of_update hp hlive rfl (fun hwf => ?_) (hinv.running_pid_eq ?_)
    · exact ⟨hwf.pid_ne, hpid.trans hwf.pid_eq, hwf.metadata, fun _ => hvalid⟩
    · exact ProcessTable.process_eq_ok.mp hp
  | updateRuntimeState pid context memory =>
    obtain ⟨hcall, rfl⟩ := changed_eq_ok h
    simp only [ProcessTable.updateRuntimeState, bind_eq_ok] at hcall
    obtain ⟨process, hp, updated, hupdated, htable⟩ := hcall
    simp only [ProcessControlBlock.replaceRuntimeState, bind_eq_ok, reject_eq_ok, not_not]
      at hupdated
    obtain ⟨_, hlive, _, hvalid, _, hpid, _, -, hupdated⟩ := hupdated
    obtain rfl := Except.ok.inj hupdated
    obtain rfl := Except.ok.inj htable
    refine change_of_update hp hlive rfl (fun hwf => ?_) (hinv.running_pid_eq ?_)
    · exact ⟨hwf.pid_ne, hpid.trans hwf.pid_eq, hwf.metadata, fun _ => hvalid⟩
    · exact ProcessTable.process_eq_ok.mp hp
  | transition pid state =>
    obtain ⟨hcall, rfl⟩ := changed_eq_ok h
    simp only [ProcessTable.transition, bind_eq_ok, reject_eq_ok] at hcall
    obtain ⟨_, hstate, process, hp, _, halone, updated, hupdated, htable⟩ := hcall
    simp only [ProcessControlBlock.transitionTo, bind_eq_ok, reject_eq_ok, not_not] at hupdated
    obtain ⟨_, -, _, hlegal, hupdated⟩ := hupdated
    obtain rfl := Except.ok.inj hupdated
    obtain rfl := Except.ok.inj htable
    have hlive : process.state ≠ .Terminated := by
      intro ht
      rw [ht] at hlegal
      cases state <;> first | exact absurd rfl hstate | cases hlegal
    refine .replaced (ProcessTable.process_eq_ok.mp hp) hlive (fun hwf => ?_) (fun hrun => ?_) rfl
    · refine ⟨hwf.pid_ne, hwf.pid_eq, ?_, fun _ => hwf.context hlive⟩
      have hnone : ¬ process.hasExitCode = true := fun h => hlive (hwf.metadata.mp h)
      exact ⟨fun h => absurd h hnone, fun h => absurd h hstate⟩
    · by_contra hother
      exact halone ⟨hrun, not_or.mp hother⟩
  | terminateAsIs pid exitCode =>
    obtain ⟨hcall, rfl⟩ := changed_eq_ok h
    simp only [ProcessTable.terminateAsIs, bind_eq_ok] at hcall
    obtain ⟨process, hp, staged, hstaged, htable⟩ := hcall
    obtain rfl := Except.ok.inj htable
    exact change_of_terminate hp (terminate_eq_ok hstaged).1 rfl hstaged
  | terminateContext | faultContext =>
    obtain ⟨hcall, rfl⟩ := changed_eq_ok h
    exact change_of_finishContext hcall
  | terminate | fault =>
    obtain ⟨hcall, rfl⟩ := changed_eq_ok h
    exact change_of_finish hcall

/-- The process that a call is about; the others create one. -/
def target : TableCall W → Option ProcessId
  | .createProcessFromContext _ | .createProcessFromCpu _ | .createProcess _ => none
  | .updateContext pid _ | .updateRuntimeState pid _ _ | .transition pid _ | .terminateAsIs pid _
  | .terminateContext pid _ _ | .terminate pid _ _ _ | .faultContext pid _ _ _
  | .fault pid _ _ _ _ => some pid

/-- Finishing a process changes that process only. -/
theorem finish_target {pid : ProcessId} {finalContext : ProcessContext} {finalMemory : Memory}
    {exitCode : Word} {kind : ProcessTerminationKind} {message : Str}
    (h : table.finish pid finalContext finalMemory exitCode kind message = .ok table') :
    ∃ process, table'.processes = table.processes.modify pid fun _ => process := by
  simp only [ProcessTable.finish, bind_eq_ok] at h
  obtain ⟨_, -, _, -, staged, -, htable⟩ := h
  exact ⟨staged, congrArg ProcessTable.processes (Except.ok.inj htable).symm⟩

/-- Finishing a process without its memory changes that process only. -/
theorem finishContext_target {pid : ProcessId} {finalContext : ProcessContext} {exitCode : Word}
    {kind : ProcessTerminationKind} {message : Str}
    (h : table.finishContext pid finalContext exitCode kind message = .ok table') :
    ∃ process, table'.processes = table.processes.modify pid fun _ => process := by
  simp only [ProcessTable.finishContext, bind_eq_ok] at h
  obtain ⟨_, -, _, -, staged, -, htable⟩ := h
  exact ⟨staged, congrArg ProcessTable.processes (Except.ok.inj htable).symm⟩

/-- A call about a process replaces that process. -/
theorem apply_target {call : TableCall W} {pid : ProcessId} (htarget : call.target = some pid)
    (h : apply table call = .ok (r, table')) :
    ∃ process, table'.processes = table.processes.modify pid fun _ => process := by
  -- Every call that names a process assigns its entry last and touches no other.
  cases call with
  | createProcessFromContext | createProcessFromCpu | createProcess => cases htarget
  | updateContext other context =>
    obtain rfl := Option.some.inj htarget
    obtain ⟨hcall, -⟩ := changed_eq_ok h
    simp only [ProcessTable.updateContext, bind_eq_ok] at hcall
    obtain ⟨_, -, updated, -, htable⟩ := hcall
    exact ⟨updated, congrArg ProcessTable.processes (Except.ok.inj htable).symm⟩
  | updateRuntimeState other context memory =>
    obtain rfl := Option.some.inj htarget
    obtain ⟨hcall, -⟩ := changed_eq_ok h
    simp only [ProcessTable.updateRuntimeState, bind_eq_ok] at hcall
    obtain ⟨_, -, updated, -, htable⟩ := hcall
    exact ⟨updated, congrArg ProcessTable.processes (Except.ok.inj htable).symm⟩
  | transition other state =>
    obtain rfl := Option.some.inj htarget
    obtain ⟨hcall, -⟩ := changed_eq_ok h
    simp only [ProcessTable.transition, bind_eq_ok] at hcall
    obtain ⟨_, -, _, -, _, -, updated, -, htable⟩ := hcall
    exact ⟨updated, congrArg ProcessTable.processes (Except.ok.inj htable).symm⟩
  | terminateAsIs other exitCode =>
    obtain rfl := Option.some.inj htarget
    obtain ⟨hcall, -⟩ := changed_eq_ok h
    simp only [ProcessTable.terminateAsIs, bind_eq_ok] at hcall
    obtain ⟨_, -, updated, -, htable⟩ := hcall
    exact ⟨updated, congrArg ProcessTable.processes (Except.ok.inj htable).symm⟩
  | terminateContext | faultContext =>
    obtain rfl := Option.some.inj htarget
    obtain ⟨hcall, -⟩ := changed_eq_ok h
    exact finishContext_target hcall
  | terminate | fault =>
    obtain rfl := Option.some.inj htarget
    obtain ⟨hcall, -⟩ := changed_eq_ok h
    exact finish_target hcall

/-- A call about one process, returning or throwing, leaves the others alone. -/
theorem run_target {call : TableCall W} {pid other : ProcessId} (htarget : call.target = some pid)
    (hne : other ≠ pid) :
    (call.run table).2.processes.find? other = table.processes.find? other
      ∧ (call.run table).2.processes.keys = table.processes.keys := by
  rcases hrun : call.run table with ⟨e | r, table'⟩
  · rw [run_throw hrun]
    exact ⟨rfl, rfl⟩
  · obtain ⟨process, hprocesses⟩ := apply_target htarget (run_ok hrun)
    rw [hprocesses]
    refine ⟨(SortedMap.find?_modify _ _ _ _).trans (if_neg hne), SortedMap.keys_modify _ _ _⟩

/-! ## Sequences of calls -/

/-- Calls in order, each on the table the one before left, whether that returned or threw, with the
PIDs that were handed out. -/
def runCalls : List (TableCall W) → ProcessTable → List ProcessId × ProcessTable
  | [], table => ([], table)
  | call :: calls, table =>
      let (r, table') := call.run table
      let (pids, final) := runCalls calls table'
      (match r with
        | .ok (some pid) => pid :: pids
        | _ => pids, final)

/-- A call that is made is a change or has thrown. -/
theorem run_change (hinv : table.Invariant) (call : TableCall W) :
    (∃ r table', call.run table = (.ok r, table') ∧ TableChange table r table')
      ∨ ∃ e, call.run table = (.error e, table) := by
  cases hrun : call.run table with
  | mk r table' =>
    cases r with
    | ok r => exact .inl ⟨r, table', rfl, apply_change hinv (run_ok hrun)⟩
    | error e => exact .inr ⟨e, by rw [run_throw hrun]⟩

/-- The keys of the table only grow at the end, by the PID handed out. -/
theorem keys_change (hinv : table.Invariant) (h : TableChange table r table') :
    table'.processes.keys = table.processes.keys ++ r.toList := by
  cases h with
  | @created pid process next ne fresh wf ready =>
    refine table.processes.keys_emplace_last process fun other hother => ?_
    obtain ⟨p, hp⟩ := Option.isSome_iff_exists.mp ((SortedMap.mem_keys_iff _ _).mp hother)
    exact next ▸ hinv.next (next ▸ ne) hp
  | replaced =>
    rw [Option.toList_none, List.append_nil]
    exact SortedMap.keys_modify _ _ _

/-- A change leaves a terminated process alone. -/
theorem terminated_change {pid : ProcessId} {process : ProcessControlBlock}
    (h : TableChange table r table') (hp : table.processes.find? pid = some process)
    (ht : process.state = .Terminated) : table'.processes.find? pid = some process := by
  cases h with
  | @created new _ _ _ fresh =>
    refine (table.processes.find?_emplace _ fresh pid).trans ((if_neg ?_).trans hp)
    rintro rfl
    rw [fresh] at hp
    cases hp
  | @replaced other _ old new found live =>
    refine (ProcessTable.Invariant.find?_setProcess found new pid).trans ((if_neg ?_).trans hp)
    rintro rfl
    rw [found] at hp
    exact live (Option.some.inj hp ▸ ht)

/-- What any sequence of calls does to a table that meets the invariant. -/
theorem runCalls_spec (calls : List (TableCall W)) (hinv : table.Invariant) :
    (runCalls calls table).2.Invariant
      ∧ (runCalls calls table).2.processes.keys
          = table.processes.keys ++ (runCalls calls table).1
      ∧ ∀ pid process, table.processes.find? pid = some process → process.state = .Terminated →
          (runCalls calls table).2.processes.find? pid = some process := by
  induction calls generalizing table with
  | nil => exact ⟨hinv, (List.append_nil _).symm, fun _ _ hp _ => hp⟩
  | cons call calls ih =>
    rcases run_change hinv call with ⟨r, table', hrun, hc⟩ | ⟨e, hrun⟩
    · obtain ⟨hinv', hkeys, hfrozen⟩ := ih (hinv.change hc)
      rw [keys_change hinv hc, List.append_assoc] at hkeys
      simp only [runCalls, hrun]
      refine ⟨hinv', hkeys.trans ?_, fun pid process hp ht => ?_⟩
      · cases r <;> rfl
      · exact hfrozen pid process (terminated_change hc hp ht) ht
    · simp only [runCalls, hrun]
      exact ih hinv

/-- The table's invariant holds after any sequence of calls on a fresh table, returning or throwing.
The PIDs in the table are those handed out, in strictly ascending order; a terminated process
stays as it is under any further calls; and a call that throws changes nothing. -/
theorem table_invariant_preserved (calls : List (TableCall W)) :
    (runCalls calls .empty).2.Invariant
      ∧ (runCalls calls .empty).2.processes.keys = (runCalls calls .empty).1
      ∧ (runCalls calls .empty).1.Pairwise (· < ·)
      ∧ (∀ later pid process, (runCalls calls .empty).2.processes.find? pid = some process →
          process.state = .Terminated →
          (runCalls (calls ++ later) .empty).2.processes.find? pid = some process)
      ∧ ∀ (call : TableCall W) e table', call.run (runCalls calls .empty).2 = (.error e, table') →
          table' = (runCalls calls .empty).2 := by
  obtain ⟨hinv, hkeys, -⟩ := runCalls_spec calls ProcessTable.Invariant.empty
  have hpids : (runCalls calls .empty).2.processes.keys = (runCalls calls .empty).1 := hkeys
  refine ⟨hinv, hpids, ?_, fun later pid process hp ht => ?_, fun call e table' h => run_throw h⟩
  · rw [← hpids]
    exact SortedMap.keys_sorted _
  · have happend : ∀ (first : List (TableCall W)) (t : ProcessTable),
        (runCalls (first ++ later) t).2 = (runCalls later (runCalls first t).2).2 := by
      intro first
      induction first with
      | nil => exact fun _ => rfl
      | cons call first ih => exact fun t => ih (call.run t).2
    rw [happend]
    exact (runCalls_spec later hinv).2.2 pid process hp ht

end TableCall

namespace ProcessTable.Invariant

variable {table table' : ProcessTable} {pid : ProcessId}

/-- A transition keeps the invariant. -/
theorem transition {state : ProcessState} (hinv : table.Invariant)
    (h : table.transition pid state = .ok table') : table'.Invariant := by
  have happly : TableCall.apply table (.transition pid state : TableCall Unit)
      = .ok (none, table') := by
    rw [TableCall.apply, h]
    rfl
  exact hinv.change (TableCall.apply_change hinv happly)

/-- Storing a runtime state keeps the invariant. -/
theorem updateRuntimeState {context : ProcessContext} {memory : Memory} (hinv : table.Invariant)
    (h : table.updateRuntimeState pid context memory = .ok table') : table'.Invariant := by
  have happly : TableCall.apply table (.updateRuntimeState pid context memory : TableCall Unit)
      = .ok (none, table') := by
    rw [TableCall.apply, h]
    rfl
  exact hinv.change (TableCall.apply_change hinv happly)

/-- Finishing a process keeps the invariant. -/
theorem finish {finalContext : ProcessContext} {finalMemory : Memory} {exitCode : Word}
    {kind : ProcessTerminationKind} {message : Str} (hinv : table.Invariant)
    (h : table.finish pid finalContext finalMemory exitCode kind message = .ok table') :
    table'.Invariant :=
  hinv.change (TableCall.change_of_finish h)

end ProcessTable.Invariant

end ZeroCpu.Kernel
