import ZeroCpu.Kernel.ContextSwitch
import ZeroCpu.Kernel.Resume

/-!
# Processes in the table and on the CPU

Every process that can still run is one of its image: what the table holds of it can be put on the
CPU, and once it is on the CPU it is inside the confinement of its image. A context switch keeps
both, since what it saves and what it restores is checked against the same image.
-/

namespace ZeroCpu.Kernel

open Library

variable {W : Type} {worldOk : W → Prop} {imageAt : ProcessId → Option ProcessImage} {base : Setup W}

/-- The process is one of `image` and can be put on the CPU. -/
structure Owned (image : ProcessImage) (process : ProcessControlBlock) : Prop where
  valid : ValidImage image
  space : process.addressSpace = spaceOf image process.addressSpace.memory
  memory : SavedMemory image process.addressSpace.memory
  context : SavedContext image process.context
  pc_lt : process.context.pc < 512 + image.executable.code.length

/-- Every process of the table that has not terminated is one of its image. -/
def AllOwned (imageAt : ProcessId → Option ProcessImage) (table : ProcessTable) : Prop :=
  ∀ pid process, table.processes.find? pid = some process → process.state ≠ .Terminated →
    ∃ image, imageAt pid = some image ∧ Owned image process

/-- The CPU is in the hands of a process of `image`. -/
structure Resident (worldOk : W → Prop) (base : Setup W) (image : ProcessImage) (cpu : CPU W) :
    Prop where
  valid : ValidImage image
  setup : cpu.setup = loadedSetup base image
  user : UserContext (imageConfinement image worldOk) cpu.core

/-- What the CPU of a runtime keeps whoever is on it. -/
structure Shared (worldOk : W → Prop) (base : Setup W) (cpu : CPU W) : Prop where
  setup : ∀ image, loadedSetup cpu.setup image = loadedSetup base image
  size : cpu.core.state.memory.size = 4096
  world : worldOk cpu.core.world

theorem Resident.shared {image : ProcessImage} {cpu : CPU W} (h : Resident worldOk base image cpu) :
    Shared worldOk base cpu where
  setup other := by
    rw [h.setup]
    rfl
  size := h.user.memory_size
  world := h.user.world

/-- A process that gives up the CPU inside its code can be put back on it. -/
theorem Resident.owned_saved {image : ProcessImage} {cpu : CPU W} {pid : ProcessId}
    {process : ProcessControlBlock} (h : Resident worldOk base image cpu) (hpid : pid ≠ 0)
    (howned : Owned image process) (hpc : cpu.core.state.pc < 512 + image.executable.code.length) :
    Owned image { process with
      context := contextOf pid cpu
      addressSpace := { process.addressSpace with memory := cpu.core.state.memory } } where
  valid := h.valid
  space := by
    rw [howned.space]
    rfl
  memory := savedMemory_of_userContext h.user
  context := savedContext_contextOf hpid h.setup h.user
  pc_lt := hpc

/-- The running process of the table is on the CPU, inside its code. -/
def RunningResident (worldOk : W → Prop) (imageAt : ProcessId → Option ProcessImage)
    (base : Setup W) (table : ProcessTable) (cpu : CPU W) : Prop :=
  table.running_pid ≠ 0 → ∃ image, imageAt table.running_pid = some image
    ∧ Resident worldOk base image cpu ∧ cpu.core.state.pc < 512 + image.executable.code.length

/-- Saving keeps every process one of its image. -/
theorem owned_savedFrom {table : ProcessTable} {cpu : CPU W} (hinv : table.Invariant)
    (howned : AllOwned imageAt table) (hrunning : RunningResident worldOk imageAt base table cpu)
    {pid : ProcessId} {process : ProcessControlBlock}
    (hp : table.processes.find? pid = some process) (hlive : process.state ≠ .Terminated) :
    ∃ image, imageAt pid = some image ∧ Owned image (savedFrom cpu pid process) := by
  obtain ⟨image, himage, hprocess⟩ := howned pid process hp hlive
  refine ⟨image, himage, ?_⟩
  rw [savedFrom]
  split_ifs with hstate
  · obtain ⟨hpid, hne⟩ := (hinv.running pid).mpr ⟨process, hp, hstate⟩
    obtain ⟨image', himage', hresident, hpc⟩ := hrunning (hpid ▸ hne)
    obtain rfl : image' = image := by
      rw [hpid, himage] at himage'
      exact (Option.some.inj himage').symm
    exact hresident.owned_saved hne hprocess hpc
  · exact hprocess

/-- A process that is handed the CPU only changes its state. -/
theorem owned_handedOver {image : ProcessImage} {process : ProcessControlBlock}
    (h : Owned image process) (selected pid : ProcessId) :
    Owned image (handedOver selected pid process) := by
  rw [handedOver]
  split_ifs
  · exact { h with }
  · exact { h with }
  · exact h

/-- A context switch puts a process of its image on the CPU. -/
theorem dispatchNext_resident {d d' : Dispatch W} {selected : ProcessId}
    (hinv : d.table.Invariant) (howned : AllOwned imageAt d.table)
    (hshared : Shared worldOk base d.cpu)
    (hrunning : RunningResident worldOk imageAt base d.table d.cpu)
    (h : dispatchNext d = (.ok selected, d')) :
    AllOwned imageAt d'.table ∧ d'.table.running_pid = selected
      ∧ ∃ image, imageAt selected = some image ∧ Resident worldOk base image d'.cpu
        ∧ UserRunning (imageConfinement image worldOk) d'.cpu.core := by
  obtain ⟨-, hselected, -, -, hfind⟩ := find?_of_dispatchNext hinv h
  obtain ⟨saved, s, process, hsaved, hschedule, hprocess, hresume⟩ := dispatchNext_eq_ok h
  obtain ⟨hcpu, -, hinvSaved, hfindSaved⟩ := saveRunning_spec hinv hsaved
  obtain ⟨hrunnable, hover⟩ := scheduleNext_spec hinvSaved hschedule
  have hownedSaved : AllOwned imageAt saved.table := by
    intro pid process hp hlive
    rw [hfindSaved] at hp
    obtain ⟨old, hold, rfl⟩ := Option.map_eq_some_iff.mp hp
    refine owned_savedFrom hinv howned hrunning hold fun ht => hlive ?_
    rw [savedFrom]
    split_ifs <;> exact ht
  -- The selected process could run, so that it is owned, and keeps its image when it runs.
  obtain ⟨image, himage, hselectedOwned⟩ : ∃ image, imageAt selected = some image
      ∧ Owned image process := by
    obtain ⟨candidate, hcandidate, hstate⟩ := hrunnable
    have hlive : candidate.state ≠ .Terminated := by
      rintro ht
      rw [ht] at hstate
      rcases hstate with hstate | hstate <;> cases hstate
    obtain ⟨image, himage, howner⟩ := hownedSaved selected candidate hcandidate hlive
    rw [hover.find, hcandidate, Option.map_some] at hprocess
    obtain rfl := Option.some.inj hprocess
    exact ⟨image, himage, owned_handedOver howner selected selected⟩
  have htable : d'.table = s.1 := (resume_spec hresume).2.2
  refine ⟨fun pid process' hp hlive => ?_, hselected, image, himage, ?_⟩
  · rw [htable] at hp
    by_cases hpid : pid = selected
    · subst hpid
      obtain rfl := Option.some.inj (hprocess.symm.trans hp)
      exact ⟨image, himage, hselectedOwned⟩
    · rw [hover.find] at hp
      obtain ⟨candidate, hcandidate, rfl⟩ := Option.map_eq_some_iff.mp hp
      have hlive' : candidate.state ≠ .Terminated := by
        intro ht
        refine hlive ?_
        rw [handedOver, if_neg hpid, if_neg (by rw [ht]; rintro ⟨⟩)]
        exact ht
      obtain ⟨image', himage', howner⟩ := hownedSaved pid candidate hcandidate hlive'
      exact ⟨image', himage', owned_handedOver howner selected pid⟩
  · have hv := hselectedOwned.valid
    by_cases ha : Activatable image
    · have hsize : ({ saved with table := s.1, scheduler := s.2 } : Dispatch W).cpu.core.state.memory.size
          = 4096 := by
        show saved.cpu.core.state.memory.size = 4096
        rw [hcpu, hshared.size]
      rw [resume_eq hv ha hselectedOwned.space hselectedOwned.memory hselectedOwned.context
        hselectedOwned.pc_lt hsize] at hresume
      obtain rfl := (Prod.ext_iff.mp hresume).2
      have huser := userRunning_resumedCpu saved.cpu hselectedOwned.context hselectedOwned.memory
        (hcpu ▸ hshared.world : worldOk saved.cpu.core.world)
      refine ⟨⟨hv, ?_, huser.toUserContext⟩, huser⟩
      show loadedSetup saved.cpu.setup image = _
      rw [hcpu, hshared.setup]
    · obtain ⟨e, herror⟩ := resume_error hv ha hselectedOwned.space
        ({ saved with table := s.1, scheduler := s.2 } : Dispatch W)
      rw [hresume] at herror
      cases herror

end ZeroCpu.Kernel
