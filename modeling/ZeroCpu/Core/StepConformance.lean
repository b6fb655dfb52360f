import ZeroCpu.Core.Conformance
import ZeroCpu.Core.Faults

/-!
# Steps conform to the reference semantics

Reference: `docs/semantics.md`, sections 2 to 7.

Both program representations stand for instructions of the reference, so what holds of `perform`
holds of a step of either engine: fetch, instruction, clocked devices.
-/

namespace ZeroCpu

open Library Exec

variable {W : Type}

/-! ## Both representations -/

theorem map_inr_ne_inl {r : Except Str ℕ} {w : Word} :
    r.map (Sum.inr : ℕ → Word ⊕ ℕ) ≠ .ok (.inl w) := by
  rcases r with e | a <;> simp [Except.map]

theorem map_inr_eq_inr {r : Except Str ℕ} {a : ℕ} :
    r.map (Sum.inr : ℕ → Word ⊕ ℕ) = .ok (.inr a) ↔ r = .ok a := by
  rcases r with e | a <;> simp [Except.map]

/-- An operand of a program of `Instruction`s stands for its resolved form. -/
theorem Operand.view_denotes (m : Setup W) (operand : Operand) :
    (operand.view m).Denotes (Reference.Operand.ofOperand m operand) := by
  -- Five parts as for encoded operands: destination, writable address, value, readable address,
  -- code address.
  cases operand with
  | none => exact ⟨nofun, nofun, nofun, nofun, nofun⟩
  | register reg =>
    refine ⟨fun _ h => ?_, nofun, fun _ _ h => .inl ⟨reg, rfl, ?_⟩, nofun, nofun⟩
    · rw [← Except.ok.inj h]
      rfl
    · exact (Sum.inl.inj (Except.ok.inj h)).symm
  | immediate value =>
    refine ⟨nofun, nofun, fun _ _ h => .inr ?_, nofun, nofun⟩
    rw [← Sum.inl.inj (Except.ok.inj h)]
    rfl
  | memoryAddress address =>
    refine ⟨nofun, fun _ _ h => ?_, nofun, fun _ _ h => ⟨?_, .inl ⟨_, rfl⟩⟩, nofun⟩
    · exact congrArg some (Except.ok.inj h)
    · exact congrArg some (Sum.inr.inj (Except.ok.inj h))
  | registerIndirectAddress reg =>
    have haddress : ∀ registers a,
        Operand.address (.registerIndirectAddress reg) registers = .ok a →
        Reference.Operand.asAddress registers (.indirect reg) = some a := by
      intro registers a h
      obtain ⟨hnonneg, rfl⟩ := CPU.checkedSize_eq_ok_iff.mp h
      exact if_neg (by omega)
    exact ⟨nofun, haddress, fun _ _ h => absurd h map_inr_ne_inl,
      fun registers a h => ⟨haddress registers a (map_inr_eq_inr.mp h), .inr ⟨_, rfl⟩⟩, nofun⟩
  | label name =>
    refine ⟨nofun, nofun, nofun, nofun, fun a h => ?_⟩
    simp only [Operand.view, CPU.resolveLabelAddress] at h
    simp only [Reference.Operand.ofOperand]
    cases hl : m.labels.lookup name with
    | none => rw [hl] at h; cases h
    | some index =>
      rw [hl] at h
      rw [← Except.ok.inj h]

/-- A payload is decoded to the register with its number. -/
theorem CPU.decodeBinaryRegister_eq_ok {payload : Word} {reg : RegisterName}
    (h : decodeBinaryRegister payload = .ok reg) :
    RegisterName.all[payload.toNat]? = some reg := by
  unfold decodeBinaryRegister at h
  split at h <;> cases h <;>
  · rename_i hn
    rw [hn]
    rfl

/-- PC is in the code exactly at a boundary of the reference. -/
theorem CPU.isBinaryPcInCode_iff_isBoundary {m : Setup W} {address : ℕ} :
    isBinaryPcInCode m address = true ↔ Reference.isBoundary m address := by
  have hsize : kInstructionSize = 24 := rfl
  simp only [isBinaryPcInCode, Reference.isBoundary]
  split_ifs with h1 h2 h3
  · exact ⟨nofun, fun h => absurd h.1 (by omega)⟩
  · exact ⟨nofun, fun h => absurd h.2.1 (by omega)⟩
  · exact ⟨nofun, fun h => absurd h.2.1 (by omega)⟩
  · rw [beq_iff_eq, hsize]
    exact ⟨fun h => ⟨by omega, by omega, h⟩, fun h => h.2.2⟩

/-- An operand of an encoded instruction stands for its resolved form. -/
theorem binaryView_denotes (m : Setup W) (type : EncodedOperandType) (payload : Word) :
    (binaryView m type payload).Denotes (Reference.Operand.ofEncoded m type payload) := by
  cases type with
  -- One case per operand type. The five parts are destination, writable address, value, readable
  -- address and code address; those a type does not have throw, and are empty.
  | None =>
    exact ⟨by rintro _ ⟨⟩, by rintro _ _ ⟨⟩, by rintro _ _ ⟨⟩, by rintro _ _ ⟨⟩, by rintro _ ⟨⟩⟩
  | Register =>
    refine ⟨fun reg h => ?_, by rintro _ _ ⟨⟩, fun registers w h => ?_, fun registers a h => ?_,
      by rintro _ ⟨⟩⟩
    · simp only [Reference.Operand.ofEncoded, CPU.decodeBinaryRegister_eq_ok h]
    · simp only [binaryView] at h
      cases hreg : CPU.decodeBinaryRegister payload with
      | error e => rw [hreg] at h; cases h
      | ok reg =>
        rw [hreg] at h
        refine .inl ⟨reg, ?_, (Sum.inl.inj (Except.ok.inj h)).symm⟩
        simp only [Reference.Operand.ofEncoded, CPU.decodeBinaryRegister_eq_ok hreg]
    · simp only [binaryView] at h
      cases hreg : CPU.decodeBinaryRegister payload with
      | error e => rw [hreg] at h; cases h
      | ok reg => rw [hreg] at h; cases h
  | Immediate =>
    refine ⟨by rintro _ ⟨⟩, by rintro _ _ ⟨⟩, fun _ _ h => .inr ?_, by rintro _ _ ⟨⟩, by rintro _ ⟨⟩⟩
    rw [← Sum.inl.inj (Except.ok.inj h)]
    rfl
  | MemoryAddress =>
    -- Both address types read and write the same address.
    have haddress : ∀ registers a, binaryAddress .MemoryAddress payload registers = .ok a →
        Reference.Operand.ofEncoded m .MemoryAddress payload = .memory a := by
      intro registers a h
      obtain ⟨hnonneg, rfl⟩ := CPU.checkedSize_eq_ok_iff.mp h
      exact if_neg (by omega)
    refine ⟨by rintro _ ⟨⟩, fun registers a h => ?_, fun _ _ h => absurd h map_inr_ne_inl,
      fun registers a h => ?_, by rintro _ ⟨⟩⟩
    · rw [haddress registers a h]
      rfl
    · rw [haddress registers a (map_inr_eq_inr.mp h)]
      exact ⟨rfl, .inl ⟨a, rfl⟩⟩
  | RegisterIndirectAddress =>
    have haddress : ∀ registers a, binaryAddress .RegisterIndirectAddress payload registers = .ok a →
        ∃ reg, Reference.Operand.ofEncoded m .RegisterIndirectAddress payload = .indirect reg
          ∧ Reference.Operand.asAddress registers (.indirect reg) = some a := by
      intro registers a h
      obtain ⟨reg, hreg, hsize⟩ := bind_eq_ok.mp h
      obtain ⟨hnonneg, rfl⟩ := CPU.checkedSize_eq_ok_iff.mp hsize
      refine ⟨reg, ?_, if_neg (by omega)⟩
      simp only [Reference.Operand.ofEncoded, CPU.decodeBinaryRegister_eq_ok hreg]
    refine ⟨by rintro _ ⟨⟩, fun registers a h => ?_, fun _ _ h => absurd h map_inr_ne_inl,
      fun registers a h => ?_, by rintro _ ⟨⟩⟩
    · obtain ⟨reg, hreg, hsome⟩ := haddress registers a h
      rw [hreg]
      exact hsome
    · obtain ⟨reg, hreg, hsome⟩ := haddress registers a (map_inr_eq_inr.mp h)
      rw [hreg]
      exact ⟨hsome, .inr ⟨reg, rfl⟩⟩
  | CodeAddress =>
    refine ⟨by rintro _ ⟨⟩, by rintro _ _ ⟨⟩, by rintro _ _ ⟨⟩, by rintro _ _ ⟨⟩, fun a h => ?_⟩
    simp only [binaryView, CPU.readBinaryCodeAddress, Library.bind_eq_ok, reject_eq_ok, not_not] at h
    obtain ⟨_, -, offset, hoffset, _, hcode, heq⟩ := h
    obtain ⟨hnonneg, rfl⟩ := CPU.checkedSize_eq_ok_iff.mp hoffset
    obtain rfl := Except.ok.inj heq
    -- The reference asks for an instruction boundary, which is what the code range check admits.
    have hin : ¬ (payload.toInt < 0
        ∨ ¬ Reference.isBoundary m (m.binaryCodeBase + payload.toNat)) := by
      rw [not_or, not_not]
      exact ⟨by omega, CPU.isBinaryPcInCode_iff_isBoundary.mp hcode⟩
    exact if_neg hin

theorem CPU.checked_eq_ok {b : Bool} {error : Str} {u : Unit} :
    checked b error = .ok u ↔ b = true := by
  cases b <;> simp [checked]

/-- What the interpreter sees of an instruction denotes it. -/
theorem Instruction.view_denotes (m : Setup W) (instruction : Instruction) :
    (instruction.view m).Denotes (Reference.Instruction.ofInstruction m instruction) := by
  have hnone : ∀ operand : Operand, operand = .none ↔ Reference.Operand.ofOperand m operand = .none := by
    intro operand
    cases operand with
    | label name =>
      simp only [Reference.Operand.ofOperand]
      cases m.labels.lookup name <;> simp
    | _ => simp [Reference.Operand.ofOperand]
  refine ⟨rfl, fun h => ?_, fun h => ?_, fun h => ?_, Operand.view_denotes m _,
    Operand.view_denotes m _⟩
  · have := CPU.checked_eq_ok.mp h
    simp only [Bool.and_eq_true, beq_iff_eq, hnone] at this
    simp [Reference.Instruction.operandCount, Reference.Instruction.ofInstruction, this]
  · have := CPU.checked_eq_ok.mp h
    simp only [Bool.and_eq_true, beq_iff_eq, bne_iff_ne, ne_eq, hnone] at this
    simp [Reference.Instruction.operandCount, Reference.Instruction.ofInstruction, this]
  · have := CPU.checked_eq_ok.mp h
    simp only [Bool.and_eq_true, bne_iff_ne, ne_eq, hnone] at this
    simp [Reference.Instruction.operandCount, Reference.Instruction.ofInstruction, this]

/-- What the binary engine sees of an instruction denotes it. -/
theorem DecodedInstruction.view_denotes (m : Setup W) (d : DecodedInstruction) :
    (d.view m).Denotes (Reference.Instruction.ofDecoded m d) := by
  have hnone : ∀ type payload, Reference.Operand.ofEncoded m type payload = .none
      ↔ type = .None ∧ payload = 0 := by
    intro type payload
    cases type with
    | Register | RegisterIndirectAddress =>
      simp only [Reference.Operand.ofEncoded]
      cases RegisterName.all[payload.toNat]? <;> simp
    | Immediate => simp [Reference.Operand.ofEncoded]
    | None | MemoryAddress | CodeAddress =>
      simp only [Reference.Operand.ofEncoded]
      split_ifs <;> simp_all
  refine ⟨rfl, fun h => ?_, fun h => ?_, fun h => ?_, binaryView_denotes m _ _,
    binaryView_denotes m _ _⟩
  · have := CPU.checked_eq_ok.mp h
    simp only [Bool.and_eq_true, beq_iff_eq] at this
    simp [Reference.Instruction.operandCount, Reference.Instruction.ofDecoded, hnone, this]
  · have := CPU.checked_eq_ok.mp h
    simp only [Bool.and_eq_true, beq_iff_eq, bne_iff_ne, ne_eq] at this
    simp [Reference.Instruction.operandCount, Reference.Instruction.ofDecoded, hnone, this]
  · have := CPU.checked_eq_ok.mp h
    simp only [Bool.and_eq_true, bne_iff_ne, ne_eq] at this
    simp [Reference.Instruction.operandCount, Reference.Instruction.ofDecoded, hnone, this]

/-! ## Clocked devices -/

namespace CPU

variable {m : Setup W} {s s' : Core W}

/-- Devices that tick without a throw tick as in the reference. -/
theorem tickDevices_conforms {devices : List (ClockedDevice W)} {u : Unit}
    (h : tickDevices devices s = (.ok u, s')) :
    ∃ world, Reference.tickAll devices s.world = some world ∧ s' = { s with world := world } := by
  induction devices generalizing s with
  | nil => exact ⟨s.world, rfl, (pure_eq_ok.mp h).2.symm⟩
  | cons device rest ih =>
    obtain ⟨_, s1, htick, h⟩ := Exec.bind_eq_ok.mp h
    obtain ⟨world, hworld, rfl⟩ := ih h
    obtain ⟨hok, rfl⟩ := Prod.ext_iff.mp htick
    refine ⟨world, ?_, rfl⟩
    rw [Reference.tickAll]
    generalize hout : device.tick s.world = out at *
    simp only [zoom_apply, Core.worldRef, hout] at hok hworld
    rcases out with ⟨e | _, w⟩
    · cases hok
    · exact hworld

/-- When a tick throws, the devices before it have ticked and the ones after it have not. -/
theorem tickDevices_error {devices : List (ClockedDevice W)} {e : Str}
    (h : tickDevices devices s = (.error e, s')) :
    ∃ before device after world world', devices = before ++ device :: after
      ∧ Reference.tickAll before s.world = some world ∧ device.tick world = (.error e, world')
      ∧ s' = { s with world := world' } := by
  induction devices generalizing s with
  | nil => cases (Prod.ext_iff.mp h).1
  | cons device rest ih =>
    rw [tickDevices, bind_apply, zoom_apply] at h
    simp only [Core.worldRef] at h
    cases hout : device.tick s.world with
    | mk result w =>
      rw [hout] at h
      rcases result with e' | _
      · obtain ⟨herr, rfl⟩ := Prod.ext_iff.mp h
        obtain rfl := Except.error.inj herr
        exact ⟨[], device, rest, s.world, w, rfl, rfl, hout, rfl⟩
      · obtain ⟨before, d, after, world, world', rfl, hbefore, htick, rfl⟩ := ih h
        refine ⟨device :: before, d, after, world, world', rfl, ?_, htick, rfl⟩
        simp only [Reference.tickAll, hout]
        exact hbefore

/-! ## Steps -/

/-- A fetched and executed instruction is the reference's, with the reference's effect. -/
theorem instructionPart_conforms [LongDouble] (hs : s.state.halted = false)
    (hm : m.softwareInterruptHandler = none) {u : Unit}
    (h : instructionPart m s = (.ok u, s')) :
    ∃ i, Reference.instructionAt m s.state = some i
      ∧ Reference.exec mulDetected m (s.state.pc + Reference.instructionSize m) i s = some s' := by
  unfold instructionPart at h
  cases hb : m.hasBinaryProgram with
  -- A binary program: the bytes at PC are the instruction the reference finds there.
  | true =>
    rw [if_pos hb] at h
    cases hf : fetched m s.state with
    | error e => rw [hf] at h; cases (Prod.ext_iff.mp h).1
    | ok p =>
      obtain ⟨d, shown⟩ := p
      rw [hf] at h
      simp only [executeBinaryInstruction_eq_perform] at h
      simp only [fetched, Library.bind_eq_ok, reject_eq_ok, Bool.not_eq_false] at hf
      obtain ⟨_, -, _, hin, bytes, hread, decoded, hdecode, _, -, heq⟩ := hf
      obtain ⟨rfl, rfl⟩ := Prod.ext_iff.mp (Except.ok.inj heq)
      obtain ⟨-, rfl⟩ := Memory.readBytes_eq_ok.mp hread
      have hdecode : InstructionDecoder.decodeInstruction (s.state.memory.slice s.state.pc 24)
        = .ok decoded := hdecode
      have hexec := perform_conforms hs (DecodedInstruction.view_denotes m decoded) hm h
      refine ⟨Reference.Instruction.ofDecoded m decoded, ?_, ?_⟩
      · rw [Reference.instructionAt, if_pos hb, if_pos (isBinaryPcInCode_iff_isBoundary.mp hin),
          hdecode]
        rfl
      · rw [Reference.instructionSize, if_pos hb]
        exact hexec
  -- An interpreted program: PC is its index.
  | false =>
    rw [if_neg (by simp [hb])] at h
    cases hf : fetchedProgram m s.state with
    | error e => rw [hf] at h; cases (Prod.ext_iff.mp h).1
    | ok instruction =>
      rw [hf] at h
      simp only [execute_eq_perform] at h
      obtain ⟨_, -, hf⟩ := Library.bind_eq_ok.mp hf
      have hexec := perform_conforms hs (Instruction.view_denotes m instruction) hm h
      refine ⟨Reference.Instruction.ofInstruction m instruction, ?_, ?_⟩
      · rw [Reference.instructionAt, if_neg (by simp [hb])]
        cases hp : m.program[s.state.pc]? with
        | none => rw [hp] at hf; cases hf
        | some i =>
          rw [hp] at hf
          rw [Except.ok.inj hf]
          rfl
      · rw [Reference.instructionSize, if_neg (by simp [hb])]
        exact hexec

/-- The same CPU without its clocked devices. -/
def withoutClock (cpu : CPU W) : CPU W :=
  { cpu with setup := { cpu.setup with clockedDevices := [] } }

/-- An instruction does not depend on the clocked devices. -/
theorem perform_clockedDevices [LongDouble] (e : Engine) (m : Setup W)
    (devices : List (ClockedDevice W)) (i : InstructionView) :
    perform e { m with clockedDevices := devices } i = perform e m i := by
  unfold perform
  cases i.opcode <;> rfl

/-- Fetching and executing has nothing to do with the clocked devices. -/
theorem instructionPart_clockedDevices [LongDouble] (m : Setup W)
    (devices : List (ClockedDevice W)) :
    instructionPart { m with clockedDevices := devices } = instructionPart m := by
  funext core
  unfold instructionPart
  have hbinary : ∀ d, executeBinaryInstruction { m with clockedDevices := devices } d
      = executeBinaryInstruction m d := by
    intro d
    rw [executeBinaryInstruction_eq_perform, executeBinaryInstruction_eq_perform,
      perform_clockedDevices]
    rfl
  have hprogram : ∀ i, execute { m with clockedDevices := devices } i = execute m i := by
    intro i
    rw [execute_eq_perform, execute_eq_perform, perform_clockedDevices]
    rfl
  have hfetched : fetched { m with clockedDevices := devices } core.state = fetched m core.state :=
    rfl
  have hfetched' : fetchedProgram { m with clockedDevices := devices } core.state
      = fetchedProgram m core.state := rfl
  simp only [hbinary, hprogram, hfetched, hfetched']

/-- A step that ends without error is the reference's step. -/
theorem step_conforms [LongDouble] {cpu : CPU W} (hrun : ¬ cpu.Stopped)
    (hpending : cpu.NoPending) (hm : cpu.setup.softwareInterruptHandler = none)
    (hok : cpu.step.core.state.hasError = false) :
    ∃ i, Reference.instructionAt cpu.setup cpu.stepCore.state = some i
      ∧ Reference.step mulDetected cpu.setup
        (cpu.stepCore.state.pc + Reference.instructionSize cpu.setup) i cpu.stepCore
        = some cpu.step.core := by
  rw [step_core hrun hpending] at hok ⊢
  have hs : cpu.stepCore.state.halted = false := (Bool.not_eq_true _).mp (not_or.mp hrun).1
  rw [finishInstruction, bind_apply] at hok ⊢
  -- The step is the instruction and, unless it stopped, the device tick; neither threw.
  cases hpart : instructionPart cpu.setup cpu.stepCore with
  | mk result after =>
    rw [hpart] at hok
    rcases result with e | u
    · cases hok
    · obtain ⟨i, hi, hexec⟩ := instructionPart_conforms hs hm hpart
      refine ⟨i, hi, ?_⟩
      simp only [Reference.step, hexec, Option.bind_eq_bind, Option.bind_some]
      simp only [tickUnlessStopped, bind_apply, get_apply] at hok ⊢
      cases hh : after.state.halted with
      | true => rfl
      | false =>
        cases he : after.state.hasError with
        | true => simp only [hh, he] at hok; exact absurd (he.symm.trans hok) (by simp)
        | false =>
          simp only [hh, he, Bool.not_false, Bool.and_self, if_true] at hok ⊢
          cases ht : tickClockedDevices cpu.setup after with
          | mk result after' =>
            rw [ht] at hok
            rcases result with e | _
            · cases hok
            · obtain ⟨world, hworld, rfl⟩ := tickDevices_conforms ht
              simp only [hworld]
              rfl

/-- A step without clocked devices is the instruction alone. -/
theorem step_core_withoutClock [LongDouble] {cpu : CPU W} (hrun : ¬ cpu.Stopped)
    (hpending : cpu.NoPending) :
    cpu.withoutClock.step.core = settle (instructionPart cpu.setup cpu.stepCore) := by
  rw [step_core (show ¬ cpu.withoutClock.Stopped from hrun)
    (show cpu.withoutClock.NoPending from hpending)]
  have hpart : instructionPart cpu.withoutClock.setup = instructionPart cpu.setup :=
    instructionPart_clockedDevices cpu.setup []
  rw [hpart, finishInstruction, bind_apply]
  have hcore : cpu.withoutClock.stepCore = cpu.stepCore := rfl
  rw [hcore]
  rcases instructionPart cpu.setup cpu.stepCore with ⟨e | u, after⟩
  · rfl
  · simp only [tickUnlessStopped, bind_apply, get_apply]
    split_ifs <;> rfl

/-- A step ticks the clocked devices once its instruction has left the CPU running. -/
theorem step_core_of_withoutClock [LongDouble] {cpu : CPU W} (hrun : ¬ cpu.Stopped)
    (hpending : cpu.NoPending) :
    (cpu.withoutClock.step.Stopped → cpu.step.core = cpu.withoutClock.step.core)
      ∧ (¬ cpu.withoutClock.step.Stopped → cpu.step.core
        = settle (tickClockedDevices cpu.setup cpu.withoutClock.step.core)) := by
  unfold Stopped
  rw [step_core hrun hpending, step_core_withoutClock hrun hpending, finishInstruction, bind_apply]
  rcases instructionPart cpu.setup cpu.stepCore with ⟨e | u, after⟩
  · exact ⟨fun _ => rfl, fun hgoes => absurd (.inr rfl) hgoes⟩
  · simp only [settle, tickUnlessStopped, bind_apply, get_apply]
    cases hhalted : after.state.halted with
    | true => exact ⟨fun _ => rfl, fun hgoes => absurd (.inl rfl) hgoes⟩
    | false =>
      cases herror : after.state.hasError with
      | true => exact ⟨fun _ => rfl, fun hgoes => absurd (.inr rfl) hgoes⟩
      | false => exact ⟨fun hstopped => absurd hstopped (by simp), fun _ => rfl⟩
/-- A device's own tick raised the error that a step ended with: the devices before it have ticked
and the ones after it have not. -/
def TickRaised [LongDouble] (cpu : CPU W) : Prop :=
  ∃ before device after world world', cpu.setup.clockedDevices = before ++ device :: after
    ∧ Reference.tickAll before cpu.withoutClock.step.core.world = some world
    ∧ device.tick world = (.error cpu.step.core.state.errorMessage, world')
    ∧ cpu.step.core.world = world'

/-- A step that ends in error halts the CPU. Unless a device's own tick raised the error, the step
is that of the CPU without clocked devices. -/
theorem step_error [LongDouble] {cpu : CPU W} (hrun : ¬ cpu.Stopped) (hpending : cpu.NoPending)
    (hm : cpu.setup.softwareInterruptHandler = none)
    (hsize : cpu.core.state.memory.size = MemoryMap.kDefaultMemorySize)
    (herror : cpu.step.core.state.hasError = true) :
    cpu.step.core.state.halted = true
      ∧ (cpu.step.core = cpu.withoutClock.step.core ∨ cpu.TickRaised) := by
  have hok : cpu.stepCore.state.hasError = false := (Bool.not_eq_true _).mp (not_or.mp hrun).2
  have hwithout := step_core_withoutClock hrun hpending
  have hsize : cpu.stepCore.state.memory.size = 4096 := hsize
  have hprecise := precise_instructionPart (m := cpu.setup) hm hsize cpu.stepCore ⟨rfl, rfl, rfl⟩
  unfold TickRaised
  rw [hwithout, step_core hrun hpending] at *
  rw [finishInstruction, bind_apply] at *
  rcases hpart : instructionPart cpu.setup cpu.stepCore with ⟨message | u, after⟩
  · exact ⟨rfl, .inl rfl⟩
  · rw [hpart] at herror hprecise
    have hafter : after.state.hasError = false := Eq.trans hprecise hok
    simp only [tickUnlessStopped, bind_apply, get_apply] at herror ⊢
    split_ifs at herror ⊢ with hgo
    · rcases ht : tickClockedDevices cpu.setup after with ⟨message | u', ticked⟩
      · obtain ⟨before, device, rest, world, world', hdevices, hbefore, htick, rfl⟩ :=
          tickDevices_error ht
        exact ⟨rfl, .inr ⟨before, device, rest, world, world', hdevices, hbefore, htick, rfl⟩⟩
      · obtain ⟨world, -, rfl⟩ := tickDevices_conforms ht
        rw [ht] at herror
        exact absurd (herror.symm.trans hafter) (by simp)
    · exact absurd (herror.symm.trans hafter) (by simp)

/-- Execution conforms to the reference semantics. A step that ends without error is the
reference's step of the instruction at PC, and the CPU's overflow detection is exact where
`long double` has a 64-bit significand. A step that ends in error halts the CPU, and no device has
ticked unless a device's own tick raised the error. -/
theorem step_follows_reference [LongDouble] (cpu : CPU W) (hpending : cpu.NoPending)
    (hhandler : cpu.setup.softwareInterruptHandler = none)
    (hsize : cpu.core.state.memory.size = MemoryMap.kDefaultMemorySize) :
    (cpu.Stopped → cpu.step = cpu)
      ∧ (¬ cpu.Stopped → cpu.step.core.state.hasError = false →
        ∃ i, Reference.instructionAt cpu.setup cpu.core.state = some i
          ∧ Reference.step mulDetected cpu.setup
            (cpu.core.state.pc + Reference.instructionSize cpu.setup) i cpu.stepCore
            = some cpu.step.core)
      ∧ (LongDouble.mantDig = 64 → ∀ lhs rhs,
        mulDetected lhs rhs = Reference.overflows (lhs.toInt * rhs.toInt))
      ∧ (¬ cpu.Stopped → cpu.step.core.state.hasError = true →
        cpu.step.core.state.halted = true
          ∧ (cpu.step.core = cpu.withoutClock.step.core ∨ cpu.TickRaised)) :=
  ⟨step_of_stopped, fun hrun => step_conforms hrun hpending hhandler, mulDetected_eq,
    fun hrun => step_error hrun hpending hhandler hsize⟩

/-! ## A device that fails to tick -/

/-- Two timers, each with a controller. -/
abbrev Timers : Type :=
  (TimerDevice × InterruptController) × (TimerDevice × InterruptController)

/-- The first timer with the controller. -/
def firstTimer : Ref Timers (TimerDevice × InterruptController) where
  get world := world.1
  set timer world := (timer, world.2)
  get_set _ _ := rfl
  set_get _ := rfl
  set_set _ _ _ := rfl

/-- The second timer with the controller. -/
def secondTimer : Ref Timers (TimerDevice × InterruptController) where
  get world := world.2
  set timer world := (world.1, timer)
  get_set _ _ := rfl
  set_get _ := rfl
  set_set _ _ _ := rfl

/-- A timer that has ticked `tickCount` times. -/
def timerAt (tickCount : BitVec 64) : TimerDevice × InterruptController :=
  (⟨0, 1000, tickCount, 0, 0, true⟩, InterruptController.clear)

/-- A CPU before a `NOP`, with the two timers on its clock. -/
def nopWithTimers (first second : BitVec 64) : CPU Timers :=
  let cpu := (CPU.new (timerAt first, timerAt second)).loadProgram [⟨.NOP, .none, .none⟩] []
  { cpu with setup := { cpu.setup with
    clockedDevices := [TimerDevice.clocked firstTimer, TimerDevice.clocked secondTimer] } }

/-- The second timer's counter is full: the step ends in error, but the first timer has ticked. -/
theorem step_error_after_tick :
    letI : LongDouble := LongDouble.x87
    let cpu := nopWithTimers 0 (BitVec.allOnes 64)
    cpu.NoPending ∧ cpu.setup.softwareInterruptHandler = none ∧ ¬ cpu.Stopped
      ∧ cpu.step.core.state.hasError = true
      ∧ cpu.step.core.world.1.1.tickCount = cpu.core.world.1.1.tickCount + 1 := by
  refine ⟨nofun, rfl, ?_, rfl, rfl⟩
  rintro (h | h) <;> cases h

/-- A CPU with 7 in R1 before a product with a negative number, with two timers on its clock. -/
def mulWithTimers : CPU Timers :=
  let cpu := (CPU.new (timerAt 0, timerAt 41)).loadProgram [⟨.MUL, .register .R1, .immediate (-3)⟩] []
  { cpu with
    setup := { cpu.setup with
      clockedDevices := [TimerDevice.clocked firstTimer, TimerDevice.clocked secondTimer] }
    core := { cpu.core with
      state := { cpu.core.state with registers := cpu.core.state.registers.set .R1 7 } } }

/-- The product is the reference's, with its flags, the next PC and a tick of each timer. -/
theorem step_follows_reference_mul :
    letI : LongDouble := LongDouble.x87
    let cpu := mulWithTimers
    Reference.step mulDetected cpu.setup 1 ⟨.MUL, .register .R1, .immediate (-3)⟩ cpu.stepCore
        = some cpu.step.core
      ∧ mulDetected 7 (-3) = Reference.overflows (7 * (-3))
      ∧ cpu.step.core.state.registers .R1 = -21 ∧ cpu.step.core.state.pc = 1
      ∧ cpu.step.core.world.1.1.tickCount = 1 ∧ cpu.step.core.world.2.1.tickCount = 42 := by
  obtain ⟨-, hstep, hdetected, -⟩ := @step_follows_reference _ LongDouble.x87 mulWithTimers
    (fun _ h => by cases h) rfl
    (by decide +kernel)
  obtain ⟨i, hi, hstep⟩ := hstep (by rintro (h | h) <;> cases h) (by decide +kernel)
  obtain rfl := Option.some.inj hi
  refine ⟨hstep, hdetected rfl 7 (-3), ?_⟩
  decide +kernel

end CPU

end ZeroCpu
