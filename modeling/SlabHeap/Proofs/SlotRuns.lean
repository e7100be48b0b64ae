import SlabHeap.Proofs.Capacity
import SlabHeap.Proofs.Runs

/-!
# Where the slots of a page are

For a page size and an object size that fits (`PageSize.Fits`), slot `i` of the
page at `base` is the run of `objectSize` bytes at `slotAddress`.  The slots lie
in the page, behind the header and the table (`Fits.disjoint_notes`), and two
different slots are disjoint (`Fits.disjoint_slots`).  The address of a slot
determines the page and the slot (`Fits.slotAddress_inj`).

All positions are natural numbers, the distance from the start of the page.
-/

namespace SlabHeap

namespace PageSize

/-- The number of objects of one size that a page holds.  It is zero where the
computation overflows. -/
def slots (size : PageSize) (objectSize : UInt64) : Nat :=
  match capacity size.bytes objectSize with
  | .ok slots => slots.toNat
  | .error _ => 0

/-- Objects of this size can be served from a page. -/
structure Fits (size : PageSize) (objectSize : UInt64) : Prop where
  /-- The size is not zero. -/
  size_pos : 0 < objectSize.toNat
  /-- At least one object fits. -/
  slots_pos : 0 < size.slots objectSize

/-- The address of a slot of a page. -/
def slotAddress (size : PageSize) (objectSize base slot : UInt64) : UInt64 :=
  base + UInt64.ofNat (firstSlot (size.slots objectSize) + slot.toNat * objectSize.toNat)

/-- The addresses of the header and the table of a page. -/
def notes (size : PageSize) (objectSize base : UInt64) : Set UInt64 :=
  Memory.run base (32 + size.slots objectSize)

/-- The number of the slot at an address. -/
def slotAt (size : PageSize) (objectSize address : UInt64) : UInt64 :=
  (address - (size.pageOf address + UInt64.ofNat (firstSlot (size.slots objectSize)))) / objectSize

variable {size : PageSize} {objectSize base other slot slot' address : UInt64}

theorem toNat_bytes_le : size.bytes.toNat ≤ 2 ^ 64 - 16 := by
  rw [toNat_bytes_eq_length]
  exact Nat.le_trans size.length_le (by decide)

theorem slots_of_capacity {count : UInt64} (h : capacity size.bytes objectSize = .ok count) :
    size.slots objectSize = count.toNat := by
  rw [slots, h]

/-- Some objects fit exactly if one does. -/
theorem slots_pos_iff (share : objectSize.toNat < 2 ^ 64 - 1) :
    0 < size.slots objectSize ↔ HoldsSlots size.bytes objectSize 1 := by
  obtain ⟨kept, answer, _, holds, greatest⟩ := capacity_greatest toNat_bytes_le share
  rw [slots_of_capacity answer]
  constructor
  · intro pos
    rcases holds with zero | holds
    · exact absurd zero (Nat.ne_of_gt pos)
    · exact holds.of_le pos
  · intro one
    exact greatest 1 (by decide) one

/-- A page of a multiple of 16 bytes starts at one. -/
theorem Aligned.dvd (aligned : size.Aligned base) (multiple : 16 ∣ size.length) :
    16 ∣ base.toNat :=
  Nat.dvd_trans multiple (size.aligned_iff.1 aligned)

namespace Fits

/-- An object size that fits leaves the capacity without overflow. -/
theorem share (fits : size.Fits objectSize) : objectSize.toNat < 2 ^ 64 - 1 := by
  have bound := objectSize.toNat_lt
  apply Nat.lt_of_le_of_ne (by omega)
  intro top
  have overflow : ¬ objectSize.toNat + (1 : UInt64).toNat < UInt64.size := by
    rw [top]
    decide
  have none : size.slots objectSize = 0 := by
    simp only [slots, capacity, checkedAdd, if_neg overflow, bind, Except.bind]
  exact absurd none (Nat.ne_of_gt fits.slots_pos)

/-- Smaller objects fit where larger ones do. -/
theorem of_le {smaller : UInt64} (fits : size.Fits objectSize) (pos : 0 < smaller.toNat)
    (le : smaller ≤ objectSize) : size.Fits smaller := by
  have bound := fits.share
  have toNatLe := UInt64.le_iff_toNat_le.1 le
  have one := (slots_pos_iff bound).1 fits.slots_pos
  exact ⟨pos, (slots_pos_iff (by omega)).2 (one.of_size_le le)⟩

theorem capacity_eq (fits : size.Fits objectSize) :
    capacity size.bytes objectSize = .ok (UInt64.ofNat (size.slots objectSize)) := by
  obtain ⟨kept, answer, few, _, _⟩ := capacity_greatest toNat_bytes_le fits.share
  rw [slots_of_capacity answer, answer, UInt64.ofNat_toNat]

theorem slots_le (fits : size.Fits objectSize) : size.slots objectSize ≤ 255 := by
  obtain ⟨kept, answer, few, _, _⟩ := capacity_greatest toNat_bytes_le fits.share
  rw [slots_of_capacity answer]
  exact few

theorem end_le (fits : size.Fits objectSize) :
    firstSlot (size.slots objectSize) + size.slots objectSize * objectSize.toNat ≤
      size.length := by
  obtain ⟨kept, answer, _, holds, _⟩ := capacity_greatest toNat_bytes_le fits.share
  have same := slots_of_capacity answer
  rcases holds with zero | holds
  · exact absurd (same.trans zero) (Nat.ne_of_gt fits.slots_pos)
  · rw [HoldsSlots, ← same, toNat_bytes_eq_length] at holds
    exact holds

theorem toNat_slots (fits : size.Fits objectSize) :
    (UInt64.ofNat (size.slots objectSize)).toNat = size.slots objectSize := by
  have bound := fits.slots_le
  rw [UInt64.toNat_ofNat', Nat.mod_eq_of_lt (by omega)]

theorem notes_le (fits : size.Fits objectSize) : 32 + size.slots objectSize ≤ size.length :=
  Nat.le_trans (le_firstSlot _) (Nat.le_trans (Nat.le_add_right _ _) fits.end_le)

/-- Where one object fits in a page, a link does. -/
theorem wide (fits : size.Fits objectSize) : 8 ≤ size.length :=
  Nat.le_trans (by omega) fits.notes_le

/-- A page that holds an object is a multiple of 16 bytes. -/
theorem dvd_length (fits : size.Fits objectSize) : 16 ∣ size.length := by
  have bytes : 2 ^ 4 ≤ 2 ^ size.exponent.val := Nat.le_trans (by omega) fits.notes_le
  exact Nat.pow_dvd_pow 2 ((Nat.pow_le_pow_iff_right (by decide)).1 bytes)

/-- A slot ends before the end of the page. -/
theorem slot_end_le (fits : size.Fits objectSize) (inRange : slot.toNat < size.slots objectSize) :
    firstSlot (size.slots objectSize) + slot.toNat * objectSize.toNat + objectSize.toNat ≤
      size.length := by
  have whole := fits.end_le
  have bodies := Nat.mul_le_mul_right objectSize.toNat inRange
  rw [Nat.succ_mul] at bodies
  omega

/-- The position of a slot in its page. -/
theorem toNat_slotAddress_sub (fits : size.Fits objectSize) (base : UInt64)
    (inRange : slot.toNat < size.slots objectSize) :
    (size.slotAddress objectSize base slot - base).toNat =
      firstSlot (size.slots objectSize) + slot.toNat * objectSize.toNat := by
  have stop := fits.slot_end_le inRange
  have page := size.length_lt
  rw [slotAddress, UInt64.add_comm, UInt64.add_sub_cancel, UInt64.toNat_ofNat',
    Nat.mod_eq_of_lt (by omega)]

theorem toNat_slotAddress (fits : size.Fits objectSize) (aligned : size.Aligned base)
    (inRange : slot.toNat < size.slots objectSize) :
    (size.slotAddress objectSize base slot).toNat =
      base.toNat + (firstSlot (size.slots objectSize) + slot.toNat * objectSize.toNat) := by
  have stop := fits.slot_end_le inRange
  have top := aligned.toNat_add_length_le
  have pos := fits.size_pos
  rw [slotAddress, UInt64.toNat_add, UInt64.toNat_ofNat']
  omega

/-- The first slot of a page has an address. -/
theorem toNat_first (fits : size.Fits objectSize) (aligned : size.Aligned base) :
    (base + UInt64.ofNat (firstSlot (size.slots objectSize))).toNat =
      base.toNat + firstSlot (size.slots objectSize) := by
  have zero : (0 : UInt64).toNat < size.slots objectSize := fits.slots_pos
  have value := fits.toNat_slotAddress aligned zero
  rwa [slotAddress, UInt64.toNat_zero, Nat.zero_mul, Nat.add_zero] at value

/-- A byte belongs to a slot exactly if its position does. -/
theorem mem_slot_iff (fits : size.Fits objectSize) (inRange : slot.toNat < size.slots objectSize) :
    address ∈ Memory.run (size.slotAddress objectSize base slot) objectSize.toNat ↔
      firstSlot (size.slots objectSize) + slot.toNat * objectSize.toNat ≤
          (address - base).toNat ∧
        (address - base).toNat < firstSlot (size.slots objectSize) +
          slot.toNat * objectSize.toNat + objectSize.toNat := by
  have stop := fits.slot_end_le inRange
  have page := size.length_le
  have position := fits.toNat_slotAddress_sub base inRange
  have bound := (address - base).toNat_lt
  have split : address - size.slotAddress objectSize base slot =
      address - base - (size.slotAddress objectSize base slot - base) := by grind
  rw [Memory.mem_run, split, UInt64.toNat_sub, position]
  omega

theorem slot_subset_page (fits : size.Fits objectSize)
    (inRange : slot.toNat < size.slots objectSize) :
    Memory.run (size.slotAddress objectSize base slot) objectSize.toNat ⊆ size.page base := by
  intro address mem
  have stop := fits.slot_end_le inRange
  have inside := (fits.mem_slot_iff inRange).1 mem
  rw [page, Memory.mem_run]
  omega

theorem pageOf_of_mem_slot (fits : size.Fits objectSize) (aligned : size.Aligned base)
    (inRange : slot.toNat < size.slots objectSize)
    (mem : address ∈ Memory.run (size.slotAddress objectSize base slot) objectSize.toNat) :
    size.pageOf address = base :=
  (mem_page_iff aligned).1 (fits.slot_subset_page inRange mem)

theorem pageOf_slotAddress (fits : size.Fits objectSize) (aligned : size.Aligned base)
    (inRange : slot.toNat < size.slots objectSize) :
    size.pageOf (size.slotAddress objectSize base slot) = base :=
  fits.pageOf_of_mem_slot aligned inRange (Memory.self_mem_run fits.size_pos)

/-- The distance of an address from the first slot, around the end of the address space where
the address is below. -/
theorem toNat_sub_first (fits : size.Fits objectSize) (base address : UInt64) :
    (address - (base + UInt64.ofNat (firstSlot (size.slots objectSize)))).toNat =
      (2 ^ 64 - firstSlot (size.slots objectSize) + (address - base).toNat) % 2 ^ 64 := by
  have stop := fits.end_le
  have page := size.length_lt
  have split : address - (base + UInt64.ofNat (firstSlot (size.slots objectSize))) =
      address - base - UInt64.ofNat (firstSlot (size.slots objectSize)) := by grind
  rw [split, UInt64.toNat_sub, UInt64.toNat_ofNat',
    Nat.mod_eq_of_lt (a := firstSlot (size.slots objectSize)) (by omega)]

/-- The distance of a slot from the first one. -/
theorem toNat_slotAddress_sub_first (fits : size.Fits objectSize) (base : UInt64)
    (inRange : slot.toNat < size.slots objectSize) :
    (size.slotAddress objectSize base slot -
      (base + UInt64.ofNat (firstSlot (size.slots objectSize)))).toNat =
      slot.toNat * objectSize.toNat := by
  have stop := fits.slot_end_le inRange
  have page := size.length_lt
  rw [fits.toNat_sub_first, fits.toNat_slotAddress_sub base inRange]
  omega

theorem slotAt_slotAddress (fits : size.Fits objectSize) (aligned : size.Aligned base)
    (inRange : slot.toNat < size.slots objectSize) :
    size.slotAt objectSize (size.slotAddress objectSize base slot) = slot := by
  rw [slotAt, fits.pageOf_slotAddress aligned inRange, ← UInt64.toNat_inj, UInt64.toNat_div,
    fits.toNat_slotAddress_sub_first base inRange, Nat.mul_div_cancel _ fits.size_pos]

/-- What lies in a page's header and table lies in the page. -/
theorem pageOf_of_mem_notes (fits : size.Fits objectSize) (aligned : size.Aligned base)
    (mem : address ∈ size.notes objectSize base) : size.pageOf address = base :=
  aligned.pageOf_of_mem_run fits.notes_le mem

/-- A slot does not meet the header and the table. -/
theorem disjoint_notes (fits : size.Fits objectSize)
    (inRange : slot.toNat < size.slots objectSize) :
    Disjoint (Memory.run (size.slotAddress objectSize base slot) objectSize.toNat)
      (size.notes objectSize base) := by
  rw [Set.disjoint_left]
  intro address inSlot inNotes
  have inside := (fits.mem_slot_iff inRange).1 inSlot
  have start := le_firstSlot (size.slots objectSize)
  rw [notes, Memory.mem_run] at inNotes
  omega

/-- Two slots of a page are disjoint. -/
theorem disjoint_slots (fits : size.Fits objectSize) (base : UInt64)
    (inRange : slot.toNat < size.slots objectSize)
    (inRange' : slot'.toNat < size.slots objectSize) (differ : slot ≠ slot') :
    Disjoint (Memory.run (size.slotAddress objectSize base slot) objectSize.toNat)
      (Memory.run (size.slotAddress objectSize base slot') objectSize.toNat) := by
  rw [Set.disjoint_left]
  intro address inFirst inSecond
  have first := (fits.mem_slot_iff inRange).1 inFirst
  have second := (fits.mem_slot_iff inRange').1 inSecond
  have numbers : slot.toNat ≠ slot'.toNat := fun same => differ (UInt64.toNat_inj.1 same)
  rcases Nat.lt_or_gt_of_ne numbers with less | greater
  · have bodies := Nat.mul_le_mul_right objectSize.toNat less
    rw [Nat.succ_mul] at bodies
    omega
  · have bodies := Nat.mul_le_mul_right objectSize.toNat greater
    rw [Nat.succ_mul] at bodies
    omega

/-- The address of a slot tells the page and the slot. -/
theorem slotAddress_inj (fits : size.Fits objectSize) (aligned : size.Aligned base)
    (aligned' : size.Aligned other) (inRange : slot.toNat < size.slots objectSize)
    (inRange' : slot'.toNat < size.slots objectSize)
    (same : size.slotAddress objectSize base slot = size.slotAddress objectSize other slot') :
    base = other ∧ slot = slot' := by
  have page := fits.pageOf_slotAddress aligned inRange
  rw [same, fits.pageOf_slotAddress aligned' inRange'] at page
  refine ⟨page.symm, Decidable.byContradiction fun differ => ?_⟩
  subst page
  have apart := fits.disjoint_slots other inRange inRange' differ
  rw [same, disjoint_self] at apart
  exact Set.notMem_empty _ (apart ▸ Memory.self_mem_run fits.size_pos)

theorem slotAddress_ne_zero (fits : size.Fits objectSize) (aligned : size.Aligned base)
    (inRange : slot.toNat < size.slots objectSize) :
    size.slotAddress objectSize base slot ≠ 0 := by
  intro zero
  have value := fits.toNat_slotAddress aligned inRange
  have start := le_firstSlot (size.slots objectSize)
  rw [zero, UInt64.toNat_zero] at value
  omega

end Fits

end PageSize

end SlabHeap
