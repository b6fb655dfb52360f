import ZeroCpu.Core.Accesses
import ZeroCpu.Debug.Continue
import ZeroCpu.Trace.Executed

/-!
# What watchpoints see

Reference: `src/debug/DebugSession.cpp`, `src/trace/TraceEvent.cpp`.

The session looks for accesses in the memory detail of the last trace event. That detail has one
access, and only for `LOAD` and `STORE`: memory operands of other instructions, the source of a
`STORE` and the stack go unseen.
-/

namespace ZeroCpu

open Library

/-! ## Accesses in the trace -/

/-- The address an event resolves is that of the operand it shows. -/
theorem resolveTraceMemoryAddress_eq_ok {state : CPUState} {operand : Operand}
    {shown : Reference.Operand} (hshows : Shows operand shown) (hwell : shown ≠ .malformed)
    {address : ℕ} : resolveTraceMemoryAddress state operand = .ok address
      ↔ shown.asAddress state.registers = some address := by
  cases hshows with
  | indirect reg =>
    simp only [resolveTraceMemoryAddress, Reference.Operand.asAddress]
    split_ifs <;> simp
  | memory address' => simp [resolveTraceMemoryAddress, Reference.Operand.asAddress]
  | malformed => exact absurd rfl hwell
  | none => exact iff_of_false nofun nofun
  | register => exact iff_of_false nofun nofun
  | immediate => exact iff_of_false nofun nofun
  | relocated => exact iff_of_false nofun nofun
  | label => exact iff_of_false nofun nofun

/-- What the watchpoint check reads of a memory detail. -/
structure MemoryTraceDetail.SameAccess (detail detail' : MemoryTraceDetail) : Prop where
  active : detail'.active = detail.active
  has_address : detail'.has_address = detail.has_address
  address : detail'.address = detail.address
  is_read : detail'.is_read = detail.is_read
  is_write : detail'.is_write = detail.is_write

/-- The loaded value changes nothing of the access recorded. -/
theorem TraceEvent.sameAccess_withLoadedValue (event : TraceEvent) (detail : MemoryTraceDetail) :
    detail.SameAccess (event.withLoadedValue detail) := by
  unfold TraceEvent.withLoadedValue
  split <;> exact ⟨rfl, rfl, rfl, rfl, rfl⟩

/-- The stored value and the device note change nothing of the access recorded. -/
theorem TraceEvent.sameAccess_withStoredValue (event : TraceEvent) (detail : MemoryTraceDetail) :
    detail.SameAccess (event.withDeviceNote (event.withStoredValue detail)) := by
  unfold TraceEvent.withDeviceNote TraceEvent.withStoredValue
  split <;> split <;> exact ⟨rfl, rfl, rfl, rfl, rfl⟩

namespace Debug

open Binary Kernel Exec

namespace DebugSession

/-- The eight bytes at an address, accessed this way, have a byte in the watched range. -/
def Watches (watchpoint : MemoryWatchpoint) (mode : MemoryWatchMode) (address : ℕ) : Prop :=
  (watchpoint.mode = .Access ∨ watchpoint.mode = mode)
    ∧ ∃ byte, watchpoint.address ≤ byte ∧ byte < watchpoint.endExclusive
      ∧ address ≤ byte ∧ byte < address + 8

/-- One of the watchpoints watches the access. -/
def Watched (watchpoints : List MemoryWatchpoint) (mode : MemoryWatchMode) (address : ℕ) : Prop :=
  ∃ watchpoint ∈ watchpoints, Watches watchpoint mode address

/-- The instruction reads or writes a byte that is watched for it. -/
def Touches (watchpoints : List MemoryWatchpoint) (state : CPUState) (i : Reference.Instruction) :
    Prop :=
  (∃ address ∈ Reference.reads state i, Watched watchpoints .Read address)
    ∨ ∃ address ∈ Reference.writes state i, Watched watchpoints .Write address

/-- The instruction touches watched bytes only where the trace looks: at what a `LOAD` reads and a
`STORE` writes. -/
def TouchesInSight (watchpoints : List MemoryWatchpoint) (state : CPUState)
    (i : Reference.Instruction) : Prop :=
  match i.opcode with
  | .LOAD => True
  | .STORE => (∃ address ∈ i.src.asAddress state.registers, Watched watchpoints .Read address) →
      ∃ address ∈ i.dst.asAddress state.registers, Watched watchpoints .Write address
  | _ => ¬ Touches watchpoints state i

variable {image : ProcessImage} {session : DebugSession}

/-- Ranges that overlap have a byte in common, unless one is empty. -/
theorem matchWatchpoint_isSome {watchpoints : List MemoryWatchpoint}
    (hsize : ∀ watchpoint ∈ watchpoints, watchpoint.size ≠ 0) (mode : MemoryWatchMode)
    (address : ℕ) :
    (matchWatchpoint mode address watchpoints).isSome = true ↔ Watched watchpoints mode address := by
  rw [matchWatchpoint, List.find?_isSome, Watched]
  refine exists_congr fun watchpoint => and_congr_right fun hmem => ?_
  have hpos := hsize watchpoint hmem
  rw [Bool.and_eq_true, Bool.or_eq_true, beq_iff_eq, beq_iff_eq, Bool.and_eq_true,
    decide_eq_true_iff, decide_eq_true_iff, Watches]
  refine and_congr_right fun _ => ?_
  simp only [MemoryWatchpoint.endExclusive]
  constructor
  · rintro ⟨h1, h2⟩
    exact ⟨max watchpoint.address address, by omega, by omega, by omega, by omega⟩
  · rintro ⟨byte, h1, h2, h3, h4⟩
    omega

/-- The watchpoint check on a detail that has the accesses of `detail`, up to its address. -/
theorem watchpointHit_of_detail {watchpoints : List MemoryWatchpoint}
    (hsize : ∀ watchpoint ∈ watchpoints, watchpoint.size ≠ 0) {event : TraceEvent}
    {operand : Operand} {detail : MemoryTraceDetail} {mode : MemoryWatchMode}
    (hdetail : (event.withAddress operand detail).SameAccess event.memoryDetail)
    (hactive : detail.active = true) (hnone : detail.has_address = false)
    (hmode : detail.is_read = true ∧ detail.is_write = false ∧ mode = .Read
      ∨ detail.is_write = true ∧ mode = .Write) :
    (watchpointHit watchpoints event).isSome = true ↔
      ∃ address, resolveTraceMemoryAddress event.before operand = .ok address
        ∧ Watched watchpoints mode address := by
  have hfields : event.memoryDetail.active = true ∧ event.memoryDetail.is_read = detail.is_read
      ∧ event.memoryDetail.is_write = detail.is_write := by
    rw [hdetail.active, hdetail.is_read, hdetail.is_write, TraceEvent.withAddress]
    split <;> exact ⟨hactive, rfl, rfl⟩
  have hsome : ∀ address, event.memoryDetail.has_address = true →
      event.memoryDetail.address = address →
      ((watchpointHit watchpoints event).isSome = true ↔ Watched watchpoints mode address) := by
    rintro _ hhas rfl
    rw [← matchWatchpoint_isSome hsize]
    simp only [watchpointHit, hfields, hhas]
    rcases hmode with ⟨hread, hwrite, rfl⟩ | ⟨hwrite, rfl⟩
    · simp [hread, hwrite]
    · simp [hwrite]
  -- An address that cannot be resolved is no access of the detail.
  cases hresolve : resolveTraceMemoryAddress event.before operand with
  | ok address =>
    have haddress : event.withAddress operand detail
        = { detail with address := address, has_address := true, route := memoryRouteText address } := by
      rw [TraceEvent.withAddress, hresolve]
    rw [hsome address (by rw [hdetail.has_address, haddress]) (by rw [hdetail.address, haddress])]
    simp
  | error note =>
    have hhas : event.memoryDetail.has_address = false := by
      rw [hdetail.has_address, TraceEvent.withAddress, hresolve]
      exact hnone
    refine iff_of_false ?_ (by simp)
    simp [watchpointHit, hhas]

/-- The watchpoint check, by the two opcodes it knows. -/
theorem watchpointHit_isSome {watchpoints : List MemoryWatchpoint}
    (hsize : ∀ watchpoint ∈ watchpoints, watchpoint.size ≠ 0) (event : TraceEvent) :
    (watchpointHit watchpoints event).isSome = true ↔
      match event.instruction.opcode with
      | .LOAD => ∃ address, resolveTraceMemoryAddress event.before event.instruction.src = .ok address
          ∧ Watched watchpoints .Read address
      | .STORE => ∃ address, resolveTraceMemoryAddress event.before event.instruction.dst = .ok address
          ∧ Watched watchpoints .Write address
      | _ => False := by
  cases hop : event.instruction.opcode with
  | LOAD =>
    have hdetail : event.memoryDetail
        = event.withLoadedValue (event.withAddress event.instruction.src
          { active := true
            operation := "MEMORY_READ"
            is_read := true
            address_text := event.instruction.src.toString }) := by
      rw [TraceEvent.memoryDetail, hop]
    exact watchpointHit_of_detail hsize (hdetail ▸ event.sameAccess_withLoadedValue _) rfl rfl
      (.inl ⟨rfl, rfl, rfl⟩)
  | STORE =>
    have hdetail : event.memoryDetail = event.withDeviceNote
        (event.withStoredValue (event.withAddress event.instruction.dst
          { active := true
            operation := "MEMORY_WRITE"
            is_write := true
            address_text := event.instruction.dst.toString
            value_text := event.instruction.src.toString })) := by
      rw [TraceEvent.memoryDetail, hop]
    exact watchpointHit_of_detail hsize (hdetail ▸ event.sameAccess_withStoredValue _) rfl rfl
      (.inr ⟨rfl, rfl⟩)
  | _ =>
    have hdetail : event.memoryDetail = {} := by rw [TraceEvent.memoryDetail, hop]
    refine iff_of_false ?_ id
    simp [watchpointHit, hdetail]

/-! ## Steps -/

/-- A CPU step of the session that runs without a fault: what it fetches is what it carries out, and
what its trace event shows. -/
theorem Debugs.executes [LongDouble] (h : Debugs image session) (hrun : ¬ session.cpu.Stopped)
    (hok : session.cpu.step.core.state.hasError = false) :
    ∃ event decoded e i after, session.cpu.step.trace = session.cpu.trace ++ [event]
      ∧ CPU.fetched session.cpu.setup session.cpu.core.state = .ok (decoded, event.instruction)
      ∧ CPU.Executes session.cpu event e i
        (Reference.Instruction.ofDecoded session.cpu.setup decoded) after := by
  have hm : session.cpu.setup.Recorded := h.setup ▸ recorded_loadedSetup image
  have hpending : session.cpu.NoPending := by
    intro r hr
    rw [h.setup] at hr
    cases hr
  rcases CPU.step_trace hm h.message with ⟨hstopped, -⟩ | ⟨-, event, htrace, -⟩
  · exact absurd hstopped hrun
  · obtain ⟨decoded, e, i, after, hfetched, hexecutes⟩ := CPU.executes_fetched hrun
      (CPU.servicePending_of_noPending hpending) (by rw [h.setup]; rfl) htrace hok
    exact ⟨event, decoded, e, i, after, htrace, hfetched, hexecutes⟩

/-- In a session, where there is neither a handler nor an interrupt controller, an instruction
carried out is one that moves no frame and has the effect of the reference. -/
theorem Debugs.effect [LongDouble] (h : Debugs image session) {event : TraceEvent} {e : Engine}
    {i : InstructionView} {r : Reference.Instruction} {after : Core Unit}
    (hexecutes : CPU.Executes session.cpu event e i r after) :
    r.MovesNoFrame ∧ Reference.effect CPU.mulDetected session.cpu.setup
      (session.cpu.core.state.pc + Reference.instructionSize session.cpu.setup) r
      session.cpu.stepCore = some after := by
  have hhandler : session.cpu.setup.softwareInterruptHandler = none := by rw [h.setup]; rfl
  have hcontroller : session.cpu.setup.interruptController = none := by rw [h.setup]; rfl
  have hexec := CPU.perform_conforms (s := session.cpu.stepCore) hexecutes.running
    hexecutes.denotes hhandler hexecutes.performed
  rw [hexecutes.size, Reference.exec] at hexec
  split_ifs at hexec with hcount hprivilege
  have huser : session.cpu.stepCore.state.privilegeLevel = .user := h.context.privilege
  refine ⟨⟨fun hint => ?_, fun hiret => ?_⟩, hexec⟩
  · rw [Reference.effect, hint] at hexec
    simp [Reference.interrupt, hcontroller] at hexec
  · exact hprivilege ⟨huser, by rw [hiret]; rfl⟩

/-- Nothing but the words it writes changes in memory. -/
theorem Debugs.frame [LongDouble] (h : Debugs image session) {event : TraceEvent} {e : Engine}
    {i : InstructionView} {r : Reference.Instruction} {after : Core Unit}
    (hexecutes : CPU.Executes session.cpu event e i r after) {byte : ℕ}
    (hout : ∀ address ∈ Reference.writes session.cpu.core.state r,
      byte < address ∨ address + 8 ≤ byte) :
    event.after.memory.byteAt byte = session.cpu.core.state.memory.byteAt byte := by
  obtain ⟨hframe, heffect⟩ := h.effect hexecutes
  rw [hexecutes.after]
  exact Reference.effect_frame (s := session.cpu.stepCore) hframe h.context.memory_size.ge heffect hout

/-- An access that the trace shows is one of the instruction's own. -/
theorem touches_of_hit [LongDouble] (h : Debugs image session) {event : TraceEvent} {e : Engine}
    {i : InstructionView} {r : Reference.Instruction} {after : Core Unit}
    (hexecutes : CPU.Executes session.cpu event e i r after) :
    ((watchpointHit session.watchpoints event).isSome = true
      ↔ Touches session.watchpoints session.cpu.core.state r)
    ↔ TouchesInSight session.watchpoints session.cpu.core.state r := by
  obtain ⟨hframe, heffect⟩ := h.effect hexecutes
  rw [watchpointHit_isSome h.watchpoints, hexecutes.opcode, hexecutes.before]
  have hwell : ∀ {operand : Reference.Operand} {address : ℕ},
      operand.asAddress session.cpu.core.state.registers = some address → operand ≠ .malformed := by
    rintro _ _ haddress rfl
    cases haddress
  unfold TouchesInSight Touches Reference.reads Reference.writes
  unfold Reference.effect at heffect
  -- The check sees the address of a `LOAD` or `STORE` only; the stack instructions access memory
  -- out of its sight.
  cases hop : r.opcode with
  | LOAD =>
    simp only [hop] at heffect
    obtain ⟨reg, hreg, heffect⟩ := Option.bind_eq_some_iff.mp heffect
    obtain ⟨address, haddress, -⟩ := Option.bind_eq_some_iff.mp heffect
    have hdst : event.instruction.dst ≠ .none := by
      have hshows := hexecutes.dst
      cases hdst : r.dst with
      | register reg =>
        rw [hdst] at hshows
        rw [hshows.eq_register]
        exact nofun
      | _ =>
        rw [hdst] at hreg
        cases hreg
    simp only [resolveTraceMemoryAddress_eq_ok (hexecutes.src hdst) (hwell haddress), iff_true]
    simp
  | STORE =>
    simp only [hop] at heffect
    obtain ⟨address, haddress, -⟩ := Option.bind_eq_some_iff.mp heffect
    simp only [resolveTraceMemoryAddress_eq_ok hexecutes.dst (hwell haddress)]
    have hdst : (r.dst.asAddress session.cpu.core.state.registers) = some address := haddress
    simp only [hdst, Option.some.injEq, exists_eq_left', Option.toList_some, List.mem_singleton,
      exists_eq_left, Option.mem_def, Option.mem_toList]
    exact iff_comm.trans or_iff_right_iff_imp
  | _ => simp only [false_iff]

/-- A step of a session in which nothing stops it ahead of the instruction and the CPU has not
stopped behind it. -/
theorem step_eq [LongDouble] (h : Debugs image session) (hrun : ¬ session.cpu.Stopped)
    (hend : session.cpu.core.state.pc ≠ session.metadata.code_end_exclusive)
    (hafter : ¬ session.cpu.step.Stopped) :
    ∃ stop, step session = (.ok stop, { session.stepCpu with last_stop := stop })
      ∧ (stop.reason = .Watchpoint ↔ session.stepCpu.findWatchpointHit.isSome = true) := by
  obtain ⟨hhalted, herror⟩ := not_or.mp hrun
  obtain ⟨hhalted', herror'⟩ : ¬ session.stepCpu.cpu.core.state.halted = true
      ∧ ¬ session.stepCpu.cpu.core.state.hasError = true := not_or.mp hafter
  have hnotEnd : session.atProgramEnd = false := beq_eq_false_iff_ne.mpr hend
  have hready : session.stoppedReason = none := by
    rw [stoppedReason, if_neg herror, if_neg hhalted, if_neg (by rw [hnotEnd]; decide)]
  have hclassify := classifyStoppedState_eq session 0
  rw [hready] at hclassify
  have hstep : step session
      = unlessStopped (stopAfterStep 1) (makeStop .StepComplete 1 []) session.stepCpu := by
    have hloaded : requireLoaded session = (.ok (), session) := by
      simp only [requireLoaded, bind_apply, get_apply, require_apply, h.loaded, if_true]
    have hgoes : ¬ (session.readyStop 0).reason ≠ .Ready := not_not.mpr rfl
    rw [step, bind_of_ok hloaded, bind_of_ok hclassify, if_neg hgoes]
    rfl
  have hfound := stopAfterStep_finds session.stepCpu 1
  -- Halt and error are excluded, so a watchpoint is looked for first.
  have hreason : session.stepCpu.reasonAfterStep
      = if session.stepCpu.findWatchpointHit.isSome then some .Watchpoint
        else if session.stepCpu.atProgramEnd then some .ProgramEnd else none := by
    rw [reasonAfterStep, if_neg herror', if_neg hhalted']
  rw [hreason] at hfound
  split_ifs at hfound with hhit hlast
  · obtain ⟨stop, hstop, hreports⟩ := hfound
    refine ⟨stop, hstep.trans (unlessStopped_of_some hstop), iff_of_true hreports.reason hhit⟩
  · obtain ⟨stop, hstop, hreports⟩ := hfound
    refine ⟨stop, hstep.trans (unlessStopped_of_some hstop), iff_of_false ?_ hhit⟩
    rw [hreports.reason]
    rintro ⟨⟩
  · obtain ⟨stop, hstop, hreports⟩ := makeStop_eq session.stepCpu .StepComplete 1 []
    refine ⟨stop, hstep.trans ((unlessStopped_of_none hfound).trans hstop), iff_of_false ?_ hhit⟩
    rw [hreports.reason]
    rintro ⟨⟩

/-- A step without a fault or a halt stops for a watchpoint exactly when its instruction touches a
watched byte, if and only if it touches watched bytes only where the trace looks. -/
theorem step_watchpoint_iff [LongDouble] {image : ProcessImage} {session : DebugSession}
    (h : Reached image session) (hrun : ¬ session.cpu.Stopped)
    (hend : session.cpu.core.state.pc ≠ session.metadata.code_end_exclusive)
    (hafter : ¬ session.cpu.step.Stopped) :
    ∃ decoded instruction stop session',
      CPU.fetched session.cpu.setup session.cpu.core.state = .ok (decoded, instruction)
      ∧ step session = (.ok stop, session') ∧
      let i := Reference.Instruction.ofDecoded session.cpu.setup decoded
      ((stop.reason = .Watchpoint ↔ Touches session.watchpoints session.cpu.core.state i)
        ↔ TouchesInSight session.watchpoints session.cpu.core.state i) := by
  have hd := h.debugs
  have hok : session.cpu.step.core.state.hasError = false :=
    (Bool.not_eq_true _).mp (not_or.mp hafter).2
  obtain ⟨event, decoded, e, i, after, htrace, hfetched, hexecutes⟩ := hd.executes hrun hok
  obtain ⟨stop, hstop, hreason⟩ := step_eq hd hrun hend hafter
  refine ⟨decoded, event.instruction, stop, _, hfetched, hstop, ?_⟩
  have hhit : session.stepCpu.findWatchpointHit = watchpointHit session.watchpoints event :=
    @findWatchpointHit_of_trace session.stepCpu _ _ htrace
  rw [hreason, hhit]
  exact touches_of_hit hd hexecutes

/-- A fresh session on an image with one watchpoint. -/
def watching (image : ProcessImage) (address size : ℕ) (mode : MemoryWatchMode) : DebugSession :=
  (DebugSession.addWatchpoint address size mode (DebugSession.loadImage image DebugSession.initial).2).2

/-- Setting one watchpoint in a new session is a reachable state. -/
theorem reached_watching [LongDouble] (hv : ValidImage image) (ha : Activatable image)
    (address size : ℕ) (mode : MemoryWatchMode) :
    Reached image (watching image address size mode) :=
  .command (reached_loadImage hv ha DebugSession.initial) (.addWatchpoint address size mode)

/-- A session that watches the word it loads. -/
theorem step_watchpoint_iff_load :
    letI : LongDouble := LongDouble.x87
    let session := watching (imageOf loadFirstWord (Str.ofString "load")) 0 8 .Read
    ¬ session.cpu.Stopped ∧ ∃ decoded instruction stop session',
      CPU.fetched session.cpu.setup session.cpu.core.state = .ok (decoded, instruction)
      ∧ step session = (.ok stop, session') ∧
      let i := Reference.Instruction.ofDecoded session.cpu.setup decoded
      ((stop.reason = .Watchpoint ↔ Touches session.watchpoints session.cpu.core.state i)
        ↔ TouchesInSight session.watchpoints session.cpu.core.state i) := by
  intro session
  let _ : LongDouble := LongDouble.x87
  have hname : Str.ofString "load" ≠ [] := by decide
  have h := reached_watching (loadable_loadFirstWord.validImage hname) (fun _ => rfl) 0 8 .Read
  have hrun : ¬ (session.cpu.core.state.halted = true ∨ session.cpu.core.state.hasError = true)
      ∧ session.cpu.core.state.pc ≠ session.metadata.code_end_exclusive
      ∧ ¬ (session.cpu.step.core.state.halted = true
        ∨ session.cpu.step.core.state.hasError = true) := by decide +kernel
  exact ⟨hrun.1, step_watchpoint_iff h hrun.1 hrun.2.1 hrun.2.2⟩

/-- `PUSH R0` as an executable. -/
def pushRegister : BinaryProgram := oneInstruction ⟨.PUSH, .register .R0, .none⟩

/-- The program can be loaded. -/
theorem loadable_pushRegister : Loadable pushRegister where
  supported := by decide
  little := by decide
  header_code_size := by decide
  header_data_size := by decide
  code_pos := by decide
  code_le := by decide
  code_aligned := by decide
  entry_lt := by decide
  entry_aligned := by decide
  data_le := by decide
  legacy_data := by decide

/-- A session that watches the stack does not stop for the word that is pushed there. -/
theorem watchpoint_misses_push :
    letI : LongDouble := LongDouble.x87
    let image := imageOf pushRegister (Str.ofString "push")
    ∃ session decoded instruction stop session', Reached image session
      ∧ ¬ session.cpu.Stopped ∧ session.cpu.core.state.pc ≠ session.metadata.code_end_exclusive
      ∧ ¬ session.cpu.step.Stopped
      ∧ CPU.fetched session.cpu.setup session.cpu.core.state = .ok (decoded, instruction)
      ∧ step session = (.ok stop, session') ∧ stop.reason ≠ .Watchpoint
      ∧ Touches session.watchpoints session.cpu.core.state
        (Reference.Instruction.ofDecoded session.cpu.setup decoded) := by
  intro image
  let _ : LongDouble := LongDouble.x87
  have hname : Str.ofString "push" ≠ [] := by decide
  have h := reached_watching (loadable_pushRegister.validImage hname) (fun _ => rfl) 2048 8 .Write
  -- What the two runs do is computed; the rest holds of every session that does this.
  have hrun : ¬ ((watching image 2048 8 .Write).cpu.core.state.halted = true
        ∨ (watching image 2048 8 .Write).cpu.core.state.hasError = true)
      ∧ (watching image 2048 8 .Write).cpu.core.state.pc
        ≠ (watching image 2048 8 .Write).metadata.code_end_exclusive
      ∧ (watching image 2048 8 .Write).cpu.core.state.sp = 2048
      ∧ ⟨1, 2048, 8, .Write⟩ ∈ (watching image 2048 8 .Write).watchpoints
      ∧ (CPU.fetched (watching image 2048 8 .Write).cpu.setup
        (watching image 2048 8 .Write).cpu.core.state).toOption.map (fun p => p.1.opcode)
        = some .PUSH := by decide +kernel
  have hstep : ((watching image 2048 8 .Write).cpu.step.core.state.halted,
      (watching image 2048 8 .Write).cpu.step.core.state.hasError,
      (step (watching image 2048 8 .Write)).1.toOption.map DebugStop.reason)
      = (false, false, some .ProgramEnd) := by decide +kernel
  generalize watching image 2048 8 .Write = session at *
  obtain ⟨hrun, hend, hsp, hmem, hopcode⟩ := hrun
  obtain ⟨hhalted, herror, hreason⟩ : _ ∧ _ ∧ _ := by simpa only [Prod.mk.injEq] using hstep
  have hafter : ¬ session.cpu.step.Stopped := by
    rw [CPU.Stopped, hhalted, herror]
    decide
  have hok := (Bool.not_eq_true _).mp (not_or.mp hafter).2
  obtain ⟨event, decoded, _, _, _, -, hfetched, -⟩ := h.debugs.executes hrun hok
  obtain ⟨stop, hstop, -⟩ := step_eq h.debugs hrun hend hafter
  rw [hstop] at hreason
  rw [hfetched] at hopcode
  have hop : (Reference.Instruction.ofDecoded session.cpu.setup decoded).opcode = .PUSH :=
    Option.some.inj hopcode
  have hwatches : Watches ⟨1, 2048, 8, .Write⟩ .Write 2048 :=
    ⟨.inr rfl, 2048, by decide, by decide, by decide, by decide⟩
  refine ⟨session, decoded, event.instruction, stop, _, h, hrun, hend, hafter, hfetched, hstop, ?_,
    .inr ⟨2048, ?_, _, hmem, hwatches⟩⟩
  · rw [Option.some.inj hreason]
    exact nofun
  · rw [Reference.writes, hop, hsp]
    exact List.mem_singleton_self _

end DebugSession

end Debug

end ZeroCpu
