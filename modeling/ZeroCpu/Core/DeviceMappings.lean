import Mathlib.Data.List.Find
import Mathlib.Order.CompletePartialOrder
import Mathlib.Order.Interval.Set.Disjoint
import ZeroCpu.Core.Devices
import ZeroCpu.Library.FirstMatch

/-!
# Mapping devices

Reference: `src/core/MMIOBus.cpp`, `include/zero_cpu/core/MMIOBus.hpp`.

The bus over `std::size_t` addresses, and what the calls that map devices keep. `toBus` leads to the
bus that the CPU model uses, whose addresses are natural numbers.
-/

namespace ZeroCpu.Addressed

open Library
open scoped List

variable {W : Type}

/-! ## The bus -/

/-- A device and its range of addresses. -/
structure MMIOMapping (W : Type) where
  base : Word
  size : Word
  device : MMIODevice W

/-- The first address behind the range. -/
def MMIOMapping.endExclusive (mapping : MMIOMapping W) : Word := mapping.base + mapping.size

/-- The address is in the range. -/
def MMIOMapping.contains (mapping : MMIOMapping W) (address : Word) : Bool :=
  decide (address ≥ mapping.base) && decide (address < mapping.endExclusive)

/-- The end of a range that is not empty and does not wrap around. -/
def checkedEnd (base size : Word) : Except Str Word := do
  reject (size = 0) "MMIO mapping size must be greater than zero"
  reject (base > BitVec.allOnes 64 - size) "MMIO mapping address range overflow"
  pure (base + size)

/-- The ranges have an address in common. -/
def rangesOverlap (aBase aSize bBase bSize : Word) : Except Str Bool := do
  let aEnd ← checkedEnd aBase aSize
  let bEnd ← checkedEnd bBase bSize
  pure (decide (aBase < bEnd) && decide (bBase < aEnd))

/-- `MMIOBus::mappings_`. -/
structure MMIOBus (W : Type) where
  mappings : List (MMIOMapping W)

namespace MMIOBus

/-- A bus without devices. -/
def empty : MMIOBus W := ⟨[]⟩

/-- `MMIOBus::validateMapping`; a null pointer is `none`. -/
def validateMapping (bus : MMIOBus W) (base size : Word) (device : Option (MMIODevice W)) :
    Except Str Unit := do
  let _ ← checkedEnd base size
  reject (device.isNone = true) "MMIO device must not be null"
  bus.mappings.forM fun existing => do
    let overlap ← rangesOverlap base size existing.base existing.size
    reject (overlap = true)
      ("MMIO mapping overlaps with existing device: " ++ existing.device.name : Str)

/-- `MMIOBus::mapDevice`. -/
def mapDevice (base size : Word) (device : Option (MMIODevice W)) :
    Exec Str (MMIOBus W) Unit := do
  let bus ← Exec.get
  Exec.lift (bus.validateMapping base size device)
  match device with
  | some device => Exec.modify fun bus => ⟨bus.mappings ++ [⟨base, size, device⟩]⟩
  | none => pure () -- `validateMapping` has thrown

/-- `MMIOBus::clear`. -/
def clear : Exec Str (MMIOBus W) Unit := Exec.modify fun _ => empty

/-- A device is mapped at the address. -/
def hasDeviceAt (bus : MMIOBus W) (address : Word) : Bool :=
  bus.mappings.any fun mapping => mapping.contains address

/-- The mapping that answers at the address. -/
def findMapping (bus : MMIOBus W) (address : Word) : Except Str (MMIOMapping W) :=
  match bus.mappings.find? fun mapping => mapping.contains address with
  | some mapping => .ok mapping
  | none => .error "No MMIO device mapped at address"

/-- `MMIOBus::read`. -/
def read (bus : MMIOBus W) (address : Word) : Exec Str W Word := do
  let mapping ← Exec.lift (bus.findMapping address)
  mapping.device.read (address - mapping.base).toNat

/-- `MMIOBus::write`. -/
def write (bus : MMIOBus W) (address : Word) (value : Word) : Exec Str W Unit := do
  let mapping ← Exec.lift (bus.findMapping address)
  mapping.device.write (address - mapping.base).toNat value

end MMIOBus

/-! ## Ranges of addresses -/

/-- The addresses from `base` on that a mapping of `size` bytes takes. -/
def range (base size : Word) : Set ℕ := Set.Ico base.toNat (base.toNat + size.toNat)

/-- The addresses of a mapping. -/
def MMIOMapping.range (mapping : MMIOMapping W) : Set ℕ := Addressed.range mapping.base mapping.size

/-- A range is not empty and ends below the top of the address space. -/
structure Placed (base size : Word) : Prop where
  nonempty : 0 < size.toNat
  fits : base.toNat + size.toNat ≤ 2 ^ 64 - 1

/-- The end of a placed range does not wrap around. -/
theorem Placed.toNat_end {base size : Word} (h : Placed base size) :
    (base + size).toNat = base.toNat + size.toNat := by
  rw [BitVec.toNat_add, Nat.mod_eq_of_lt]
  have := h.fits
  omega

/-- `checkedEnd` accepts the placed ranges and returns their end. -/
theorem checkedEnd_eq_ok {base size e : Word} :
    checkedEnd base size = .ok e ↔ Placed base size ∧ e = base + size := by
  have hsize : ¬ size = 0 ↔ 0 < size.toNat := by
    rw [← BitVec.toNat_inj, show (0 : Word).toNat = 0 from rfl]
    omega
  have hspace : (BitVec.allOnes 64 - size).toNat = 2 ^ 64 - 1 - size.toNat := by
    have hle : size ≤ BitVec.allOnes 64 := by
      rw [BitVec.le_def, BitVec.toNat_allOnes]
      omega
    rw [BitVec.toNat_sub_of_le hle, BitVec.toNat_allOnes]
  have hfits : ¬ base > BitVec.allOnes 64 - size ↔ base.toNat + size.toNat ≤ 2 ^ 64 - 1 := by
    rw [gt_iff_lt, BitVec.lt_def, hspace]
    omega
  simp only [checkedEnd, bind_eq_ok, reject_eq_ok, exists_const, hsize, hfits]
  constructor
  · rintro ⟨hnonempty, hplaced, h⟩
    exact ⟨⟨hnonempty, hplaced⟩, (Except.ok.inj h).symm⟩
  · rintro ⟨⟨hnonempty, hplaced⟩, rfl⟩
    exact ⟨hnonempty, hplaced, rfl⟩

/-- Two placed ranges overlap when they share an address. -/
theorem rangesOverlap_eq_ok {aBase aSize bBase bSize : Word} {overlap : Bool}
    (ha : Placed aBase aSize) (hb : Placed bBase bSize) :
    rangesOverlap aBase aSize bBase bSize = .ok overlap
      ↔ (overlap = false ↔ Disjoint (range aBase aSize) (range bBase bSize)) := by
  have hdisjoint : Disjoint (range aBase aSize) (range bBase bSize)
      ↔ ¬ (aBase < bBase + bSize ∧ bBase < aBase + aSize) := by
    rw [range, range, Set.Ico_disjoint_Ico, BitVec.lt_def, BitVec.lt_def, ha.toNat_end,
      hb.toNat_end]
    have := ha.nonempty
    have := hb.nonempty
    omega
  rw [rangesOverlap, checkedEnd_eq_ok.mpr ⟨ha, rfl⟩, checkedEnd_eq_ok.mpr ⟨hb, rfl⟩, hdisjoint]
  show Except.ok _ = Except.ok overlap ↔ _
  rw [Except.ok.injEq, ← Bool.decide_and]
  by_cases h : aBase < bBase + bSize ∧ bBase < aBase + aSize
  · cases overlap <;> simp [h]
  · cases overlap <;> simp [h]

/-- A placed mapping contains the addresses of its range. -/
theorem MMIOMapping.contains_iff {mapping : MMIOMapping W} (h : Placed mapping.base mapping.size)
    (address : Word) : mapping.contains address = true ↔ address.toNat ∈ mapping.range := by
  rw [MMIOMapping.contains, ← Bool.decide_and, decide_eq_true_iff, ge_iff_le, BitVec.le_def,
    BitVec.lt_def, MMIOMapping.endExclusive, h.toNat_end]
  rfl

/-- The offset handed to the device does not wrap around. -/
theorem MMIOMapping.toNat_offset {mapping : MMIOMapping W} (h : Placed mapping.base mapping.size)
    {address : Word} (hcontains : mapping.contains address = true) :
    (address - mapping.base).toNat = address.toNat - mapping.base.toNat :=
  BitVec.toNat_sub_of_le (BitVec.le_def.mpr ((mapping.contains_iff h address).mp hcontains).1)

/-! ## Buses without conflicts -/

/-- Every mapping is placed and no two share an address. -/
structure MMIOBus.NoConflict (bus : MMIOBus W) : Prop where
  placed : ∀ mapping ∈ bus.mappings, Placed mapping.base mapping.size
  disjoint : bus.mappings.Pairwise fun a b => Disjoint a.range b.range

/-- A device can be mapped where nothing is mapped yet. -/
structure MMIOBus.Mappable (bus : MMIOBus W) (base size : Word) (device : Option (MMIODevice W)) :
    Prop where
  device : device ≠ none
  placed : Placed base size
  free : ∀ mapping ∈ bus.mappings, Disjoint (range base size) mapping.range

namespace MMIOBus

variable {bus : MMIOBus W} {base size : Word} {device : Option (MMIODevice W)}

theorem NoConflict.empty : NoConflict (empty : MMIOBus W) := ⟨nofun, .nil⟩

/-- A mapping is accepted exactly when it can be mapped. -/
theorem validateMapping_eq_ok (h : bus.NoConflict) :
    bus.validateMapping base size device = .ok () ↔ bus.Mappable base size device := by
  simp only [validateMapping, bind_eq_ok, checkedEnd_eq_ok, reject_eq_ok, exists_const,
    forM_eq_ok, Option.isNone_iff_eq_none]
  constructor
  · rintro ⟨_, ⟨hplaced, rfl⟩, hdevice, hfree⟩
    refine ⟨hdevice, hplaced, fun mapping hmem => ?_⟩
    obtain ⟨overlap, hoverlap, hnone⟩ := hfree mapping hmem
    exact ((rangesOverlap_eq_ok hplaced (h.placed mapping hmem)).mp hoverlap).mp
      (Bool.eq_false_of_not_eq_true hnone)
  · intro hmap
    refine ⟨_, ⟨hmap.placed, rfl⟩, hmap.device, fun mapping hmem => ⟨false, ?_, Bool.false_ne_true⟩⟩
    exact (rangesOverlap_eq_ok hmap.placed (h.placed mapping hmem)).mpr
      ⟨fun _ => hmap.free mapping hmem, fun _ => rfl⟩

/-- What a call that maps a device does: it appends a mapping, or throws and changes nothing. -/
theorem mapDevice_cases (h : bus.NoConflict) (base size : Word)
    (device : Option (MMIODevice W)) :
    (∃ device', device = some device' ∧ bus.Mappable base size device
      ∧ mapDevice base size device bus
        = (.ok (), ⟨bus.mappings ++ [⟨base, size, device'⟩]⟩))
    ∨ (¬ bus.Mappable base size device ∧ ∃ e, mapDevice base size device bus = (.error e, bus)) := by
  rcases hc : bus.validateMapping base size device with e | ⟨⟩
  · refine .inr ⟨fun hmap => ?_, e, ?_⟩
    · rw [(validateMapping_eq_ok h).mpr hmap] at hc
      cases hc
    · show (Exec.lift (bus.validateMapping base size device) >>= _) bus = _
      exact Exec.bind_of_error (by rw [hc, Exec.lift_apply])
  · have hmap := (validateMapping_eq_ok h).mp hc
    cases device with
    | none => exact absurd rfl hmap.device
    | some device' =>
      refine .inl ⟨device', rfl, hmap, ?_⟩
      show (Exec.lift (bus.validateMapping base size (some device')) >>= _) bus = _
      rw [Exec.bind_of_ok (by rw [hc, Exec.lift_apply])]
      rfl

/-- A mapping that can be mapped makes no conflict. -/
theorem NoConflict.append (h : bus.NoConflict) {device : MMIODevice W}
    (hmap : bus.Mappable base size (some device)) :
    NoConflict ⟨bus.mappings ++ [⟨base, size, device⟩]⟩ where
  placed mapping hmem := by
    rcases List.mem_append.mp hmem with hmem | hmem
    · exact h.placed mapping hmem
    · obtain rfl := List.mem_singleton.mp hmem
      exact hmap.placed
  disjoint := by
    refine List.pairwise_append.mpr ⟨h.disjoint, List.pairwise_singleton _ _, ?_⟩
    intro a ha b hb
    obtain rfl := List.mem_singleton.mp hb
    exact (hmap.free a ha).symm

/-- Mapping a device makes no conflict, accepted or not. -/
theorem NoConflict.mapDevice (h : bus.NoConflict) (base size : Word)
    (device : Option (MMIODevice W)) : NoConflict (MMIOBus.mapDevice base size device bus).2 := by
  rcases mapDevice_cases h base size device with
    ⟨device', rfl, hmap, hrun⟩ | ⟨-, e, hrun⟩
  · rw [hrun]
    exact h.append hmap
  · rw [hrun]
    exact h

/-- The buses that calls of `mapDevice` and `clear` lead to, returning or throwing. -/
inductive Reached : MMIOBus W → Prop
  | empty : Reached empty
  | mapDevice {bus : MMIOBus W} (base size : Word) (device : Option (MMIODevice W))
      (h : Reached bus) : Reached (mapDevice base size device bus).2
  | clear {bus : MMIOBus W} (h : Reached bus) : Reached (clear bus).2

/-- A bus that is reached has no conflict. -/
theorem Reached.noConflict (h : Reached bus) : bus.NoConflict := by
  induction h with
  | empty => exact .empty
  | mapDevice base size device _ ih => exact ih.mapDevice base size device
  | clear _ _ => exact .empty

/-! ## Looking devices up -/

/-- At most one mapping holds an address. -/
theorem NoConflict.exclusive (h : bus.NoConflict) (address : Word) :
    Exclusive (fun mapping => mapping.contains address) bus.mappings := by
  refine h.disjoint.imp_of_mem fun {a b} ha hb hdisjoint hboth => ?_
  exact Set.disjoint_left.mp hdisjoint ((a.contains_iff (h.placed a ha) address).mp hboth.1)
    ((b.contains_iff (h.placed b hb) address).mp hboth.2)

/-- The bus at an address: the one mapping that contains it, if any, is asked for everything. -/
structure AnswersAt (bus : MMIOBus W) (address : Word) : Prop where
  unique : (bus.mappings.filter fun mapping => mapping.contains address).length ≤ 1
  mapped : ∀ mapping ∈ bus.mappings, mapping.contains address = true →
    bus.hasDeviceAt address = true
    ∧ bus.read address = mapping.device.read (address.toNat - mapping.base.toNat)
    ∧ ∀ value, bus.write address value
      = mapping.device.write (address.toNat - mapping.base.toNat) value
  unmapped : (∀ mapping ∈ bus.mappings, mapping.contains address = false) →
    bus.hasDeviceAt address = false
    ∧ bus.read address = Exec.throw ("No MMIO device mapped at address" : Str)
    ∧ ∀ value, bus.write address value = Exec.throw ("No MMIO device mapped at address" : Str)

/-- Without conflicts the mapping that holds an address answers there. -/
theorem NoConflict.answersAt (h : bus.NoConflict) (address : Word) : bus.AnswersAt address where
  unique := (h.exclusive address).length_filter
  mapped mapping hmem hcontains := by
    have hfind : bus.findMapping address = .ok mapping := by
      rw [findMapping, (h.exclusive address).find?_eq_some hmem hcontains]
    have hoffset := mapping.toNat_offset (h.placed mapping hmem) hcontains
    refine ⟨List.any_eq_true.mpr ⟨mapping, hmem, hcontains⟩, ?_, fun value => ?_⟩
    · rw [read, hfind, ← hoffset]
      rfl
    · rw [write, hfind, ← hoffset]
      rfl
  unmapped hnone := by
    have hfind : bus.findMapping address = .error "No MMIO device mapped at address" := by
      rw [findMapping, List.find?_eq_none.mpr fun mapping hmem => by simp [hnone mapping hmem]]
    refine ⟨List.any_eq_false.mpr fun mapping hmem => by simp [hnone mapping hmem], ?_,
      fun value => ?_⟩
    · rw [read, hfind]
      rfl
    · rw [write, hfind]
      rfl

/-- Two buses that cannot be told apart by an access. -/
def SameAnswers (bus bus' : MMIOBus W) : Prop :=
  ∀ address, bus'.hasDeviceAt address = bus.hasDeviceAt address
    ∧ bus'.read address = bus.read address ∧ ∀ value, bus'.write address value = bus.write address value

/-- Without conflicts the order of the mappings does not matter. -/
theorem NoConflict.sameAnswers {bus' : MMIOBus W} (h : bus.NoConflict)
    (hperm : bus.mappings.Perm bus'.mappings) : SameAnswers bus bus' := by
  intro address
  have hfind : bus'.findMapping address = bus.findMapping address := by
    rw [findMapping, findMapping, (h.exclusive address).find?_perm hperm]
  refine ⟨?_, ?_, fun value => ?_⟩
  · exact (hperm.any_eq).symm
  · rw [read, read, hfind]
  · rw [write, write, hfind]

/-- Having no conflict does not depend on the order. -/
theorem NoConflict.perm {bus' : MMIOBus W} (h : bus.NoConflict)
    (hperm : bus.mappings.Perm bus'.mappings) : bus'.NoConflict where
  placed mapping hmem := h.placed mapping (hperm.mem_iff.mpr hmem)
  disjoint := (hperm.pairwise_iff fun {_ _} hdisjoint => hdisjoint.symm).mp h.disjoint

/-! ## Sequences of calls -/

/-- The arguments of one call of `mapDevice`. -/
structure MapCall (W : Type) where
  base : Word
  size : Word
  device : Option (MMIODevice W)

/-- Calls of `mapDevice` in order, up to the first that throws. -/
def mapAll : List (MapCall W) → Exec Str (MMIOBus W) Unit
  | [] => pure ()
  | call :: calls => do
      mapDevice call.base call.size call.device
      mapAll calls

/-- The call that makes a mapping. -/
def MapCall.of (mapping : MMIOMapping W) : MapCall W := ⟨mapping.base, mapping.size, some mapping.device⟩

/-- A mapping could have been mapped after those before it. -/
theorem NoConflict.mappable {rest : List (MMIOMapping W)} {mapping : MMIOMapping W}
    (h : NoConflict ⟨bus.mappings ++ mapping :: rest⟩) :
    bus.Mappable mapping.base mapping.size (some mapping.device) where
  device := Option.some_ne_none _
  placed := h.placed mapping (List.mem_append_right _ List.mem_cons_self)
  free existing hmem :=
    ((List.pairwise_append.mp h.disjoint).2.2 existing hmem mapping List.mem_cons_self).symm

/-- Calls all return when they append mappings without a conflict. -/
theorem mapAll_eq_ok {calls : List (MapCall W)} {bus' : MMIOBus W} (h : bus.NoConflict) :
    mapAll calls bus = (.ok (), bus') ↔ ∃ added : List (MMIOMapping W),
      calls = added.map MapCall.of ∧ bus'.mappings = bus.mappings ++ added ∧ bus'.NoConflict := by
  -- On the calls; a call that succeeds leaves a bus without conflict for the rest.
  induction calls generalizing bus with
  | nil =>
    constructor
    · intro hrun
      obtain ⟨-, rfl⟩ := Exec.pure_eq_ok.mp hrun
      exact ⟨[], rfl, (List.append_nil _).symm, h⟩
    · rintro ⟨added, hnil, hmappings, -⟩
      obtain rfl := List.map_eq_nil_iff.mp hnil.symm
      rw [List.append_nil] at hmappings
      exact Exec.pure_eq_ok.mpr ⟨rfl, by cases bus; cases bus'; exact congrArg _ hmappings.symm⟩
  | cons call calls ih =>
    rw [mapAll, Exec.bind_eq_ok]
    constructor
    · rintro ⟨⟨⟩, next, hcall, hrest⟩
      rcases mapDevice_cases h call.base call.size call.device with
        ⟨device', hdevice, hmap, hrun⟩ | ⟨-, e, hrun⟩
      · obtain rfl : next = ⟨bus.mappings ++ [⟨call.base, call.size, device'⟩]⟩ :=
          (Prod.ext_iff.mp (hcall.symm.trans hrun)).2
        have hnext := h.append (hdevice ▸ hmap)
        obtain ⟨added, rfl, hmappings, hconflict⟩ := (ih hnext).mp hrest
        refine ⟨⟨call.base, call.size, device'⟩ :: added, ?_, ?_, hconflict⟩
        · rw [List.map_cons, MapCall.of, ← hdevice]
        · rw [hmappings, List.append_assoc, List.singleton_append]
      · cases (Prod.ext_iff.mp (hcall.symm.trans hrun)).1
    · rintro ⟨added, hcalls, hmappings, hconflict⟩
      obtain ⟨mapping, rest, rfl, rfl, rfl⟩ := List.map_eq_cons_iff.mp hcalls.symm
      have hall : NoConflict ⟨bus.mappings ++ mapping :: rest⟩ := hmappings ▸ hconflict
      rcases mapDevice_cases h mapping.base mapping.size (some mapping.device) with ⟨device', hdevice, hmap, hrun⟩ | ⟨hnot, -⟩
      · obtain rfl := Option.some.inj hdevice
        refine ⟨(), _, hrun, (ih (h.append hmap)).mpr ⟨rest, rfl, ?_, hconflict⟩⟩
        rw [hmappings, List.append_assoc, List.singleton_append]
      · exact absurd hall.mappable hnot

/-- Calls that all return do so in any order, and the bus answers the same. -/
theorem mapAll_perm {calls calls' : List (MapCall W)} {bus' : MMIOBus W} (h : bus.NoConflict)
    (hperm : calls.Perm calls') (hrun : mapAll calls bus = (.ok (), bus')) :
    ∃ bus'', mapAll calls' bus = (.ok (), bus'') ∧ SameAnswers bus' bus'' := by
  obtain ⟨added, rfl, hmappings, hconflict⟩ := (mapAll_eq_ok h).mp hrun
  obtain ⟨added', rfl, hadded⟩ : Relation.Comp (· = List.map MapCall.of ·) (· ~ ·) calls' added := by
    rw [List.eq_map_comp_perm]
    exact hperm.symm
  have hbus : bus'.mappings.Perm (bus.mappings ++ added') :=
    hmappings ▸ hadded.symm.append_left bus.mappings
  have hconflict' : NoConflict ⟨bus.mappings ++ added'⟩ := hconflict.perm hbus
  exact ⟨_, (mapAll_eq_ok h).mpr ⟨added', rfl, rfl, hconflict'⟩, hconflict.sameAnswers hbus⟩

/-- Mappings never conflict, whatever calls map devices. -/
theorem mappings_never_conflict (bus : MMIOBus W) (h : Reached bus) :
    bus.NoConflict
    ∧ (∀ base size device,
        (mapDevice base size device bus).1 = .ok () ↔ bus.Mappable base size device)
    ∧ (∀ base size device bus', mapDevice base size device bus = (.ok (), bus') →
        ∃ mapped, device = some mapped ∧ bus'.mappings = bus.mappings ++ [⟨base, size, mapped⟩])
    ∧ (∀ base size device e bus', mapDevice base size device bus = (.error e, bus') → bus' = bus)
    ∧ (∀ address, bus.AnswersAt address)
    ∧ (∀ bus', Reached bus' → bus.mappings.Perm bus'.mappings → SameAnswers bus bus')
    ∧ ∀ calls calls' bus', calls.Perm calls' → mapAll calls bus = (.ok (), bus') →
        ∃ bus'', mapAll calls' bus = (.ok (), bus'') ∧ SameAnswers bus' bus'' := by
  have hconflict := h.noConflict
  refine ⟨hconflict, fun base size device => ?_, fun base size device bus' hrun => ?_,
    fun base size device e bus' hrun => ?_, hconflict.answersAt, fun bus' _ hperm => hconflict.sameAnswers hperm,
    fun _ _ _ hperm hrun => mapAll_perm hconflict hperm hrun⟩
  · rcases mapDevice_cases hconflict base size device with
      ⟨_, -, hmap, hrun⟩ | ⟨hnot, e, hrun⟩
    · rw [hrun]
      exact ⟨fun _ => hmap, fun _ => rfl⟩
    · rw [hrun]
      exact ⟨nofun, fun hmap => absurd hmap hnot⟩
  · rcases mapDevice_cases hconflict base size device with
      ⟨mapped, hdevice, -, hok⟩ | ⟨-, _, hthrow⟩
    · obtain rfl := (Prod.ext_iff.mp (hrun.symm.trans hok)).2
      exact ⟨mapped, hdevice, rfl⟩
    · cases (Prod.ext_iff.mp (hthrow.symm.trans hrun)).1
  · rcases mapDevice_cases hconflict base size device with
      ⟨_, -, -, hok⟩ | ⟨-, _, hthrow⟩
    · cases (Prod.ext_iff.mp (hok.symm.trans hrun)).1
    · exact (Prod.ext_iff.mp (hthrow.symm.trans hrun)).2.symm

/-- A device that reads as its offset. -/
def offsetDevice : MMIODevice Unit where
  name := "offset"
  read offset := pure (Word.ofSize offset)
  write _ _ := pure ()

/-- One device at address zero and one that ends where the address space does. -/
def twoDevices : MMIOBus Unit :=
  (mapDevice (-16) 15 (some offsetDevice) (mapDevice 0 16 (some offsetDevice) empty).2).2

/-- A bus with two devices. -/
theorem mappings_never_conflict_twoDevices :
    twoDevices.NoConflict
    ∧ (∀ base size device,
        (mapDevice base size device twoDevices).1 = .ok () ↔ twoDevices.Mappable base size device)
    ∧ (∀ base size device bus', mapDevice base size device twoDevices = (.ok (), bus') →
        ∃ mapped, device = some mapped
          ∧ bus'.mappings = twoDevices.mappings ++ [⟨base, size, mapped⟩])
    ∧ (∀ base size device e bus', mapDevice base size device twoDevices = (.error e, bus') →
        bus' = twoDevices)
    ∧ (∀ address, twoDevices.AnswersAt address)
    ∧ (∀ bus', Reached bus' → twoDevices.mappings.Perm bus'.mappings → SameAnswers twoDevices bus')
    ∧ ∀ calls calls' bus', calls.Perm calls' → mapAll calls twoDevices = (.ok (), bus') →
        ∃ bus'', mapAll calls' twoDevices = (.ok (), bus'') ∧ SameAnswers bus' bus'' :=
  mappings_never_conflict twoDevices (.mapDevice _ _ _ (.mapDevice _ _ _ .empty))

/-! ## The bus of the CPU model -/

/-- The same bus with natural numbers for addresses. -/
def toBus (bus : MMIOBus W) : ZeroCpu.MMIOBus W where
  mappings := bus.mappings.map fun mapping =>
    { base := mapping.base.toNat, size := mapping.size.toNat, device := mapping.device }

/-- A lookup of the CPU model finds the mapping that the lookup of the source finds. -/
theorem NoConflict.find?_toBus (h : bus.NoConflict) (address : Word) :
    bus.toBus.mappings.find? (fun mapping => mapping.contains address.toNat)
      = (bus.mappings.find? fun mapping => mapping.contains address).map fun mapping =>
        { base := mapping.base.toNat, size := mapping.size.toNat, device := mapping.device } := by
  rw [toBus, List.find?_map]
  congr 1
  refine List.find?_congr fun mapping hmem => ?_
  rw [Bool.eq_iff_iff, mapping.contains_iff (h.placed mapping hmem) address]
  exact decide_eq_true_iff

/-- Both models of the bus have a device at the same addresses. -/
theorem NoConflict.hasDeviceAt_toBus (h : bus.NoConflict) (address : Word) :
    bus.toBus.hasDeviceAt address.toNat = bus.hasDeviceAt address := by
  rw [ZeroCpu.MMIOBus.hasDeviceAt, hasDeviceAt, ← List.isSome_find?, h.find?_toBus,
    Option.isSome_map, List.isSome_find?]

/-- On a bus that `mapDevice` made, the accesses of the CPU model are those of the source. -/
theorem NoConflict.read_toBus (h : bus.NoConflict) (address : Word) :
    bus.toBus.read address.toNat = bus.read address := by
  rw [ZeroCpu.MMIOBus.read, ZeroCpu.MMIOBus.findMapping, h.find?_toBus, read, findMapping]
  cases hfind : bus.mappings.find? fun mapping => mapping.contains address with
  | none => rfl
  | some mapping =>
    have hmem := List.mem_of_find?_eq_some hfind
    have hcontains := List.find?_some (p := fun mapping : MMIOMapping W => mapping.contains address) hfind
    have hoffset := mapping.toNat_offset (h.placed mapping hmem) hcontains
    exact congrArg mapping.device.read hoffset.symm

/-- Both models of the bus write to the same device. -/
theorem NoConflict.write_toBus (h : bus.NoConflict) (address value : Word) :
    bus.toBus.write address.toNat value = bus.write address value := by
  rw [ZeroCpu.MMIOBus.write, ZeroCpu.MMIOBus.findMapping, h.find?_toBus, write, findMapping]
  cases hfind : bus.mappings.find? fun mapping => mapping.contains address with
  | none => rfl
  | some mapping =>
    have hmem := List.mem_of_find?_eq_some hfind
    have hcontains := List.find?_some (p := fun mapping : MMIOMapping W => mapping.contains address) hfind
    have hoffset := mapping.toNat_offset (h.placed mapping hmem) hcontains
    exact congrArg (fun offset => mapping.device.write offset value) hoffset.symm

/-- Whatever calls have mapped devices, the CPU model has their devices at the addresses of the source
and reaches them by the offsets of the source. -/
theorem Reached.toBus (h : Reached bus) (address : Word) :
    bus.toBus.hasDeviceAt address.toNat = bus.hasDeviceAt address
      ∧ bus.toBus.read address.toNat = bus.read address
      ∧ ∀ value, bus.toBus.write address.toNat value = bus.write address value :=
  ⟨h.noConflict.hasDeviceAt_toBus address, h.noConflict.read_toBus address,
    h.noConflict.write_toBus address⟩

end MMIOBus

end ZeroCpu.Addressed
