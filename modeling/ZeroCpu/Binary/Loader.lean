import ZeroCpu.Binary.Zbin

/-!
# Placing a binary in memory

Reference: `src/binary/BinaryLoader.cpp`.
-/

namespace ZeroCpu.Binary

open Library

/-- `LoadedBinaryImage`. -/
structure LoadedBinaryImage where
  code_base : ℕ
  entry_point : ℕ
  code_size : ℕ
  data_base : ℕ
  data_size : ℕ
deriving DecidableEq

/-- The two ranges share an address; an empty range shares none. -/
def rangesOverlap (firstBegin firstSize secondBegin secondSize : ℕ) : Bool :=
  if firstSize = 0 ∨ secondSize = 0 then false
  else decide (firstBegin < secondBegin + secondSize ∧ secondBegin < firstBegin + firstSize)

/-- Ranges are disjoint where one is empty or lies before the other. -/
theorem rangesOverlap_eq_false {firstBegin firstSize secondBegin secondSize : ℕ} :
    rangesOverlap firstBegin firstSize secondBegin secondSize = false
      ↔ firstSize = 0 ∨ secondSize = 0 ∨ secondBegin + secondSize ≤ firstBegin
        ∨ firstBegin + firstSize ≤ secondBegin := by
  unfold rangesOverlap
  split_ifs <;> simp <;> omega

namespace BinaryLoader

/-- `BinaryLoader::validateProgram`. -/
def validateProgram (program : BinaryProgram) : Except Str Unit := do
  reject (¬ program.header.isSupported) "BinaryLoader does not support this binary version"
  reject (program.header.endianness ≠ .Little)
    "BinaryLoader currently supports only little-endian binaries"
  reject (program.code = []) "Binary code section is empty"
  reject (program.header.code_size.toNat ≠ program.code.length)
    "Binary header code_size does not match actual code size"
  reject (program.header.data_size.toNat ≠ program.data.length)
    "Binary header data_size does not match actual data size"
  reject (program.code.length % kInstructionSize ≠ 0)
    "Binary code size must be a multiple of instruction size"
  reject (program.header.entry_point.toNat ≥ program.header.code_size.toNat)
    "Binary entry point is outside the code section"
  reject (program.header.entry_point.toNat % kInstructionAlignment ≠ 0)
    "Binary entry point is not instruction-aligned"
  reject (program.header.isLegacy ∧ (program.data ≠ [] ∨ program.header.data_base ≠ 0
    ∨ program.header.data_size ≠ 0)) "Legacy binary format cannot contain a data section"

/-- `BinaryLoader::validatePlacement`. -/
def validatePlacement (program : BinaryProgram) (memory : Memory) (codeBase : ℕ) :
    Except Str Unit := do
  reject (codeBase > memory.size ∨ program.code.length > memory.size - codeBase)
    "Binary code section is outside memory"
  let dataBase := program.header.data_base.toNat
  reject (dataBase > memory.size ∨ program.data.length > memory.size - dataBase)
    "Binary data section is outside memory"
  reject (rangesOverlap codeBase program.code.length dataBase program.data.length)
    "Binary code and data sections overlap"

/-- A copy of the memory with the data section written. -/
def stageData (program : BinaryProgram) (memory : Memory) : Except Str Memory :=
  if program.data = [] then .ok memory
  else memory.writeBytes program.header.data_base.toNat program.data

/-- `BinaryLoader::loadIntoMemory`: the new memory is handed over only when both sections are
written. -/
def loadIntoMemory (program : BinaryProgram) (memory : Memory) (codeBase : ℕ) :
    Except Str (LoadedBinaryImage × Memory) := do
  validateProgram program
  validatePlacement program memory codeBase
  let stagedMemory ← stageData program memory
  let stagedMemory ← stagedMemory.writeBytes codeBase program.code
  pure ({
    code_base := codeBase
    entry_point := codeBase + program.header.entry_point.toNat
    code_size := program.code.length
    data_base := program.header.data_base.toNat
    data_size := program.data.length }, stagedMemory)

/-! ## What a successful load does -/

/-- What `validateProgram` accepts. -/
theorem validateProgram_eq_ok {program : BinaryProgram} {u : Unit} :
    validateProgram program = .ok u ↔
      program.header.isSupported = true ∧ program.header.endianness = .Little
      ∧ program.code ≠ [] ∧ program.header.code_size.toNat = program.code.length
      ∧ program.header.data_size.toNat = program.data.length ∧ program.code.length % 24 = 0
      ∧ program.header.entry_point.toNat < program.code.length
      ∧ program.header.entry_point.toNat % 24 = 0
      ∧ (program.header.isLegacy = true → program.data = [] ∧ program.header.data_base = 0) := by
  simp only [validateProgram, bind_eq_ok, reject_eq_ok, exists_const, not_not, not_and, not_or]
  simp only [kInstructionAlignment, kInstructionSize]
  constructor
  · rintro ⟨h1, h2, h3, h4, h5, h6, h7, h8, h9⟩
    exact ⟨h1, h2, h3, h4, h5, h6, by omega, h8, fun hl => ⟨(h9 hl).1, (h9 hl).2.1⟩⟩
  · rintro ⟨h1, h2, h3, h4, h5, h6, h7, h8, h9⟩
    refine ⟨h1, h2, h3, h4, h5, h6, by omega, h8, fun hl => ⟨(h9 hl).1, (h9 hl).2, ?_⟩⟩
    rw [(h9 hl).1] at h5
    exact BitVec.eq_of_toNat_eq h5

/-- The memory with both sections in place. -/
def loadedMemory (program : BinaryProgram) (memory : Memory) (codeBase : ℕ) : Memory :=
  (memory.splice program.header.data_base.toNat program.data).splice codeBase program.code

/-- Staging the data writes it at its base. -/
theorem stageData_eq_ok {program : BinaryProgram} {memory staged : Memory}
    (hfit : program.header.data_base.toNat + program.data.length ≤ memory.size) :
    stageData program memory = .ok staged
      ↔ staged = memory.splice program.header.data_base.toNat program.data := by
  unfold stageData
  split
  · rename_i hnil
    have hsplice : memory.splice program.header.data_base.toNat [] = memory := by
      simp [Memory.splice]
    rw [hnil, hsplice]
    exact ⟨fun h => (Except.ok.inj h).symm, fun h => congrArg Except.ok h.symm⟩
  · rw [Memory.writeBytes_eq_ok]
    exact ⟨fun h => h.2, fun h => ⟨hfit, h⟩⟩

/-- A load succeeds exactly on valid programs whose sections fit without overlap, and then places
both sections. -/
theorem loadIntoMemory_eq_ok {program : BinaryProgram} {memory memory' : Memory} {codeBase : ℕ}
    {image : LoadedBinaryImage} :
    loadIntoMemory program memory codeBase = .ok (image, memory') ↔
      validateProgram program = .ok ()
      ∧ codeBase + program.code.length ≤ memory.size
      ∧ program.header.data_base.toNat + program.data.length ≤ memory.size
      ∧ rangesOverlap codeBase program.code.length program.header.data_base.toNat
          program.data.length = false
      ∧ image = ⟨codeBase, codeBase + program.header.entry_point.toNat, program.code.length,
          program.header.data_base.toNat, program.data.length⟩
      ∧ memory' = loadedMemory program memory codeBase := by
  simp only [loadIntoMemory, validatePlacement, bind_eq_ok, reject_eq_ok, exists_const,
    Memory.writeBytes_eq_ok, Bool.not_eq_true]
  constructor
  · rintro ⟨⟨⟩, hvalid, ⟨h1, h2, h3⟩, staged, hstaged, _, ⟨-, rfl⟩, heq⟩
    cases heq
    rw [stageData_eq_ok (by omega)] at hstaged
    exact ⟨hvalid, by omega, by omega, h3, rfl, by rw [hstaged, loadedMemory]⟩
  · rintro ⟨hvalid, h1, h2, h3, rfl, rfl⟩
    refine ⟨(), hvalid, ⟨by omega, by omega, h3⟩, _, (stageData_eq_ok h2).mpr rfl, _, ⟨?_, rfl⟩, rfl⟩
    rw [Memory.size_splice h2]
    exact h1

end BinaryLoader

end ZeroCpu.Binary
