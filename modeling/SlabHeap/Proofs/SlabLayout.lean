import SlabHeap.Proofs.CacheRefinement

/-!
# The layout of a slab

A slab that is described keeps header, table and slots apart, and an address in
one of its slots leads back to the slab and to the slot.  `Slab.LaidOut` collects
what that means of the bytes in memory: of the first slot that the header notes,
and of what `Slab.addressOf` and `Slab.slotOf` compute from it.

Every described slab is laid out (`SlabView.Describes.laidOut`), so a carved one
is, wherever its page lies (`Slab.carve_laidOut`).
-/

namespace SlabHeap

/-- The parts of a slab are apart, and every byte of a slot leads back to the
slot. -/
structure Slab.LaidOut (size : PageSize) (objectSize count : UInt64) (slab : Slab)
    (memory : Memory) : Prop where
  /-- The table bytes follow the header, -/
  table : ∀ slot < count, (slab.entryAddress slot).toNat = slab.base.toNat + 32 + slot.toNat
  /-- and end where slot 0 begins or before. -/
  tableEnd : slab.base.toNat + 32 + count.toNat ≤ (slab.objectBase memory).toNat
  /-- Every slot has an address, and lies between slot 0 and the end of the page. -/
  within : ∀ slot < count, ∃ address, slab.addressOf memory slot = .ok address ∧
    (slab.objectBase memory).toNat ≤ address.toNat ∧
    address.toNat + objectSize.toNat ≤ slab.base.toNat + size.bytes.toNat
  /-- No two slots share a byte. -/
  apart : ∀ slot < count, ∀ slot' < count, slot ≠ slot' → ∀ address address',
    slab.addressOf memory slot = .ok address → slab.addressOf memory slot' = .ok address' →
    Disjoint (Memory.run address objectSize.toNat) (Memory.run address' objectSize.toNat)
  /-- Slot 0 is aligned where pages are, -/
  firstAligned : 16 ∣ size.bytes.toNat → 16 ∣ (slab.objectBase memory).toNat
  /-- and all slots are where objects are too. -/
  aligned : 16 ∣ size.bytes.toNat → 16 ∣ objectSize.toNat → ∀ slot < count, ∀ address,
    slab.addressOf memory slot = .ok address → 16 ∣ address.toNat
  /-- From a byte of a slot, masking finds the slab, -/
  containing : ∀ slot < count, ∀ address, slab.addressOf memory slot = .ok address →
    ∀ byte ∈ Memory.run address objectSize.toNat, Slab.containing byte size.bytes = .ok slab
  /-- and division finds the slot if the byte is its first. -/
  slotOf : ∀ slot < count, ∀ address, slab.addressOf memory slot = .ok address →
    slab.slotOf memory address = .ok slot
  /-- Every other byte of the slot is refused as an object. -/
  inner : ∀ slot < count, ∀ address, slab.addressOf memory slot = .ok address →
    ∀ byte ∈ Memory.run address objectSize.toNat, byte ≠ address →
      ∃ fault, slab.slotOf memory byte = .error fault ∧
        fault.message = "invalid object address " ++ hexAddress byte

variable {size : PageSize} {objectSize base slot address byte : UInt64} {view : SlabView}
  {memory : Memory}

/-! ## Positions in a page -/

/-- The table bytes follow the header. -/
theorem Slab.toNat_entryAddress {slab : Slab} (room : slab.base.toNat + 32 + slot.toNat < 2 ^ 64) :
    (slab.entryAddress slot).toNat = slab.base.toNat + 32 + slot.toNat := by
  have header : headerSize.toNat = 32 := rfl
  rw [entryAddress, UInt64.toNat_add, UInt64.toNat_add, header]
  omega

namespace PageSize.Fits

/-- The distance of a byte of a slot from the first slot. -/
theorem toNat_sub_first_of_mem (fits : size.Fits objectSize)
    (inRange : slot.toNat < size.slots objectSize)
    (mem : byte ∈ Memory.run (size.slotAddress objectSize base slot) objectSize.toNat) :
    (byte - (base + UInt64.ofNat (firstSlot (size.slots objectSize)))).toNat =
      slot.toNat * objectSize.toNat +
        (byte - size.slotAddress objectSize base slot).toNat := by
  have last := fits.slot_end_le inRange
  have page := size.length_lt
  have split : byte - (base + UInt64.ofNat (firstSlot (size.slots objectSize))) =
      (size.slotAddress objectSize base slot -
        (base + UInt64.ofNat (firstSlot (size.slots objectSize)))) +
      (byte - size.slotAddress objectSize base slot) := by grind
  rw [Memory.mem_run] at mem
  rw [split, UInt64.toNat_add, fits.toNat_slotAddress_sub_first base inRange]
  exact Nat.mod_eq_of_lt (by omega)

end PageSize.Fits

/-! ## Slabs that are described -/

namespace SlabView

variable (h : view.Describes size objectSize memory) (fits : size.Fits objectSize)

include h fits

/-- In a slot, no byte but the first has a slot number. -/
theorem Describes.slotOf_of_inner (inRange : slot.toNat < size.slots objectSize)
    (mem : byte ∈ Memory.run (size.slotAddress objectSize view.base slot) objectSize.toNat)
    (other : byte ≠ size.slotAddress objectSize view.base slot) :
    view.slab.slotOf memory byte = .error (.invalidObject byte) := by
  have inner : (byte - size.slotAddress objectSize view.base slot).toNat ≠ 0 := by
    intro zero
    have same : byte - size.slotAddress objectSize view.base slot = 0 := UInt64.toNat_inj.1 zero
    exact other (by grind)
  rw [h.slotOf_eq_ite fits, fits.toNat_sub_first_of_mem inRange mem, if_neg]
  rwa [Nat.mul_comm, Nat.mul_add_mod, Nat.mod_eq_of_lt (Memory.mem_run.1 mem)]

/-- A described slab is laid out. -/
theorem Describes.laidOut (aligned : size.Aligned view.base) :
    view.slab.LaidOut size objectSize (UInt64.ofNat (size.slots objectSize)) memory := by
  have count := fits.toNat_slots
  have first := fits.toNat_first aligned
  have top := aligned.toNat_add_length_le
  have room := le_firstSlot (size.slots objectSize)
  have below {slot : UInt64} (inRange : slot < UInt64.ofNat (size.slots objectSize)) :
      slot.toNat < size.slots objectSize := by
    rwa [UInt64.lt_iff_toNat_lt, count] at inRange
  have address {slot address : UInt64} (inRange : slot < UInt64.ofNat (size.slots objectSize))
      (answer : view.slab.addressOf memory slot = .ok address) :
      address = size.slotAddress objectSize view.base slot := by
    rw [h.addressOf_eq fits aligned (below inRange)] at answer
    exact (Except.ok.inj answer).symm
  refine ⟨?table, ?tableEnd, ?within, ?apart, ?firstAligned, ?aligned, ?containing, ?slotOf,
    ?inner⟩
  case table =>
    intro slot inRange
    have few := below inRange
    have stop := fits.notes_le
    have page : view.slab.base = view.base := rfl
    exact Slab.toNat_entryAddress (by rw [page]; omega)
  case tableEnd =>
    rw [h.baseNoted, first, count, Nat.add_assoc]
    exact Nat.add_le_add_left room _
  case within =>
    intro slot inRange
    have stop := fits.slot_end_le (below inRange)
    have page : view.slab.base = view.base := rfl
    refine ⟨_, h.addressOf_eq fits aligned (below inRange), ?_⟩
    rw [h.baseNoted, first, fits.toNat_slotAddress aligned (below inRange),
      PageSize.toNat_bytes_eq_length, page]
    omega
  case apart =>
    intro slot inRange slot' inRange' differ _ _ answer answer'
    rw [address inRange answer, address inRange' answer']
    exact fits.disjoint_slots view.base (below inRange) (below inRange') differ
  case firstAligned =>
    intro multiple
    rw [PageSize.toNat_bytes_eq_length] at multiple
    rw [h.baseNoted, first]
    exact Nat.dvd_add (aligned.dvd multiple) (firstSlot_dvd _)
  case aligned =>
    intro multiple object slot inRange _ answer
    rw [PageSize.toNat_bytes_eq_length] at multiple
    rw [address inRange answer, fits.toNat_slotAddress aligned (below inRange)]
    exact Nat.dvd_add (aligned.dvd multiple)
      (Nat.dvd_add (firstSlot_dvd _) (Dvd.dvd.mul_left object _))
  case containing =>
    intro slot inRange _ answer byte mem
    rw [address inRange answer] at mem
    rw [Slab.containing_eq, fits.pageOf_of_mem_slot aligned (below inRange) mem]
    rfl
  case slotOf =>
    intro slot inRange _ answer
    rw [address inRange answer]
    exact h.slotOf_eq fits (below inRange)
  case inner =>
    intro slot inRange _ answer byte mem other
    rw [address inRange answer] at mem other
    exact ⟨_, h.slotOf_of_inner fits (below inRange) mem other, rfl⟩

end SlabView

/-! ## Slabs that are carved -/

/-- **A carved slab is laid out.**  For every page size, every page and every size
of at least one byte of which the page holds some objects, carving ends with the
number of slots, and then the table, the slots and the end of the page follow each
other.  No two slots meet, they are aligned where the sizes are, and every byte of
a slot leads back to the slab and, if it is the first one, to the slot. -/
theorem Slab.carve_laidOut {count : UInt64} (answer : capacity size.bytes objectSize = .ok count)
    (some : count ≠ 0) (pos : objectSize ≠ 0) (aligned : size.Aligned base) (memory : Memory) :
    ∃ memory', (Slab.mk base).carve memory objectSize size.bytes = .ok (count, memory') ∧
      (Slab.mk base).LaidOut size objectSize count memory' := by
  have slots := PageSize.slots_of_capacity answer
  have fits : size.Fits objectSize := by
    refine ⟨Nat.pos_of_ne_zero fun zero => pos (UInt64.toNat_inj.1 zero), ?_⟩
    rw [slots]
    exact Nat.pos_of_ne_zero fun zero => some (UInt64.toNat_inj.1 zero)
  obtain ⟨memory', carved, described, _⟩ := carve_describes fits aligned memory
  have laidOut := described.laidOut fits aligned
  rw [slots, UInt64.ofNat_toNat] at carved laidOut
  exact ⟨memory', carved, laidOut⟩

/-- Objects of five bytes, in the last 256 bytes of the address space.  The estimate of 37 is
lowered twice. -/
theorem Slab.carve_laidOut_last :
    capacity (PageSize.mk 8).bytes 5 = .ok 35 ∧ (35 : UInt64) ≠ 0 ∧ (5 : UInt64) ≠ 0 ∧
      (PageSize.mk 8).Aligned 0xffffffffffffff00 ∧
      ∃ memory', (Slab.mk 0xffffffffffffff00).carve {} 5 (PageSize.mk 8).bytes =
          .ok (35, memory') ∧
        (Slab.mk 0xffffffffffffff00).LaidOut (PageSize.mk 8) 5 35 memory' := by
  have answer : capacity (PageSize.mk 8).bytes 5 = .ok 35 := by decide +kernel
  have aligned : (PageSize.mk 8).Aligned 0xffffffffffffff00 := by
    rw [PageSize.Aligned]
    decide +kernel
  exact ⟨answer, by decide, by decide, aligned,
    carve_laidOut answer (by decide) (by decide) aligned {}⟩

end SlabHeap
