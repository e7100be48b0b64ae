import Mathlib.Algebra.Group.Nat.Defs
import SlabHeap.Slab.Layout
import SlabHeap.PageSize

/-!
# How many objects a page holds

`capacity` stops at the greatest number of slots, at most `maxSlots`, that fits
in a page behind the header and the table.  `HoldsSlots` says what fitting is, in
natural numbers: the first slot stands at `firstSlot`, header and table rounded
up, and the last one has to end within the page.  The main statement is
`capacity_greatest`, which also says that nothing in the computation overflows.

The estimate that the search starts from never excludes a number that fits,
since a slot costs at least its size and one table byte
(`HoldsSlots.mul_succ_le`).
-/

namespace SlabHeap

/-- The offset of the first slot: header and table, rounded up to the object
alignment. -/
def firstSlot (slots : Nat) : Nat := (32 + slots + 15) / 16 * 16

/-- A page of `pageSize` bytes has room for so many slots. -/
def HoldsSlots (pageSize objectSize : UInt64) (slots : Nat) : Prop :=
  firstSlot slots + slots * objectSize.toNat ≤ pageSize.toNat

/-- The number of slots that the search starts from, if a slot costs its size and one table
byte. -/
def slotEstimate (pageSize objectSize : UInt64) : Nat :=
  min ((pageSize.toNat - 32) / (objectSize.toNat + 1)) 255

theorem toNat_min (a b : UInt64) : (min a b).toNat = min a.toNat b.toNat := by
  have choice : min a b = if a ≤ b then a else b := rfl
  rw [choice]
  split
  · rename_i le
    exact (Nat.min_eq_left (UInt64.le_iff_toNat_le.1 le)).symm
  · rename_i gt
    rw [UInt64.le_iff_toNat_le] at gt
    omega

/-- A rounded size is a multiple of the object alignment. -/
theorem dvd_of_rounded {objectSize : UInt64} (rounded : objectSize % objectAlign = 0) :
    16 ∣ objectSize.toNat := by
  have unit : objectAlign.toNat = 16 := rfl
  have rest := congrArg UInt64.toNat rounded
  rw [UInt64.toNat_mod, unit] at rest
  exact Nat.dvd_of_mod_eq_zero rest

theorem le_firstSlot (slots : Nat) : 32 + slots ≤ firstSlot slots := by
  unfold firstSlot
  omega

theorem firstSlot_le (slots : Nat) : firstSlot slots ≤ 32 + slots + 15 := by
  unfold firstSlot
  omega

theorem firstSlot_dvd (slots : Nat) : 16 ∣ firstSlot slots :=
  Nat.dvd_mul_left 16 _

theorem objectsOffset_eq {slots : UInt64} (h : slots.toNat ≤ 255) :
    objectsOffset slots = .ok (UInt64.ofNat (firstSlot slots.toNat)) := by
  have header : headerSize.toNat = 32 := rfl
  have unit : objectAlign.toNat = 16 := rfl
  have few : headerSize.toNat + slots.toNat < 2 ^ 64 := by omega
  obtain ⟨first, sum⟩ := checkedAdd_of_lt few
  have fits : (headerSize + slots).toNat + objectAlign.toNat < 2 ^ 64 := by omega
  obtain ⟨rounded, answer, value⟩ := alignUp_eq_ok ⟨4, unit⟩ fits
  rw [sum, header, unit] at value
  have same : rounded = UInt64.ofNat (firstSlot slots.toNat) := by
    have bound := firstSlot_le slots.toNat
    rw [← UInt64.toNat_inj, value, UInt64.toNat_ofNat', Nat.mod_eq_of_lt (by omega)]
    rfl
  simp only [objectsOffset, first, answer, same, bind, Except.bind]

/-! ## The search -/

section Search

variable {pageSize objectSize : UInt64} {slots : Nat}

/-- A number of slots that fits is within the estimate. -/
theorem HoldsSlots.mul_succ_le (h : HoldsSlots pageSize objectSize slots) :
    slots * (objectSize.toNat + 1) ≤ pageSize.toNat - 32 := by
  have start := le_firstSlot slots
  unfold HoldsSlots at h
  rw [Nat.mul_succ]
  omega

/-- A page that holds more slots holds fewer. -/
theorem HoldsSlots.of_le {fewer : Nat} (h : HoldsSlots pageSize objectSize slots)
    (le : fewer ≤ slots) : HoldsSlots pageSize objectSize fewer := by
  have bodies := Nat.mul_le_mul_right objectSize.toNat le
  have start : firstSlot fewer ≤ firstSlot slots := by
    unfold firstSlot
    omega
  unfold HoldsSlots at h ⊢
  omega

/-- A page that holds slots holds as many smaller ones. -/
theorem HoldsSlots.of_size_le {smaller : UInt64} (h : HoldsSlots pageSize objectSize slots)
    (le : smaller ≤ objectSize) : HoldsSlots pageSize smaller slots := by
  have bodies := Nat.mul_le_mul_left slots (UInt64.le_iff_toNat_le.1 le)
  unfold HoldsSlots at h ⊢
  omega

/-- Within the estimate, the end of the last slot is computed without a fault. -/
theorem objectsEnd_eq (page : pageSize.toNat ≤ 2 ^ 64 - 16) (few : slots ≤ 255)
    (estimate : slots * (objectSize.toNat + 1) ≤ pageSize.toNat - 32) (some : 0 < slots) :
    ∃ stop, objectsEnd (UInt64.ofNat slots) objectSize = .ok stop ∧
      stop.toNat = firstSlot slots + slots * objectSize.toNat := by
  have value : (UInt64.ofNat slots).toNat = slots := by
    rw [UInt64.toNat_ofNat', Nat.mod_eq_of_lt (by omega)]
  have start := firstSlot_le slots
  have start' := le_firstSlot slots
  rw [Nat.mul_succ] at estimate
  have offset : objectsOffset (UInt64.ofNat slots) = .ok (UInt64.ofNat (firstSlot slots)) := by
    rw [objectsOffset_eq (by omega), value]
  have begin : (UInt64.ofNat (firstSlot slots)).toNat = firstSlot slots := by
    rw [UInt64.toNat_ofNat', Nat.mod_eq_of_lt (by omega)]
  have product : (UInt64.ofNat slots).toNat * objectSize.toNat < 2 ^ 64 := by
    rw [value]
    omega
  have length : (UInt64.ofNat slots * objectSize).toNat = slots * objectSize.toNat := by
    rw [UInt64.toNat_mul, Nat.mod_eq_of_lt product, value]
  have bodies : checkedMul (UInt64.ofNat slots) objectSize =
      .ok (UInt64.ofNat slots * objectSize) := if_pos product
  have sum : (UInt64.ofNat (firstSlot slots)).toNat + (UInt64.ofNat slots * objectSize).toNat
      < 2 ^ 64 := by
    rw [begin, length]
    omega
  refine ⟨UInt64.ofNat (firstSlot slots) + UInt64.ofNat slots * objectSize, ?_, ?_⟩
  · simp only [objectsEnd, offset, bodies, bind, Except.bind]
    exact if_pos sum
  · rw [UInt64.toNat_add, Nat.mod_eq_of_lt sum, begin, length]

/-- Within the estimate, trimming finds the greatest number of slots that
fits. -/
theorem trimSlots_greatest (objectSize : UInt64) (page : pageSize.toNat ≤ 2 ^ 64 - 16)
    (few : slots ≤ 255) (estimate : slots * (objectSize.toNat + 1) ≤ pageSize.toNat - 32) :
    ∃ kept, trimSlots pageSize objectSize slots = .ok kept ∧ kept.toNat ≤ slots ∧
      (kept.toNat = 0 ∨ HoldsSlots pageSize objectSize kept.toNat) ∧
      ∀ other ≤ slots, HoldsSlots pageSize objectSize other → other ≤ kept.toNat := by
  induction slots with
  | zero => exact ⟨0, rfl, Nat.le_refl 0, .inl rfl, fun other le _ => le⟩
  | succ slots ih =>
    obtain ⟨stop, answer, stopValue⟩ := objectsEnd_eq page few estimate (Nat.succ_pos slots)
    have value : (UInt64.ofNat (slots + 1)).toNat = slots + 1 := by
      rw [UInt64.toNat_ofNat', Nat.mod_eq_of_lt (by omega)]
    have fitting : stop ≤ pageSize ↔ HoldsSlots pageSize objectSize (slots + 1) := by
      rw [UInt64.le_iff_toNat_le, stopValue, HoldsSlots]
    simp only [trimSlots, answer, bind, Except.bind]
    split
    · rename_i fits
      refine ⟨UInt64.ofNat (slots + 1), rfl, Nat.le_of_eq value, .inr ?_, ?_⟩
      · rw [value]
        exact fitting.1 fits
      · intro other le _
        rw [value]
        exact le
    · rename_i tooMany
      have smaller : slots * (objectSize.toNat + 1) ≤ pageSize.toNat - 32 :=
        Nat.le_trans (Nat.mul_le_mul_right _ (Nat.le_succ slots)) estimate
      obtain ⟨kept, found, le, holds, greatest⟩ := ih (Nat.le_of_succ_le few) smaller
      refine ⟨kept, found, Nat.le_succ_of_le le, holds, ?_⟩
      intro other otherLe otherHolds
      rcases Nat.lt_or_eq_of_le otherLe with less | same
      · exact greatest other (Nat.le_of_lt_succ less) otherHolds
      · subst same
        exact absurd (fitting.2 otherHolds) tooMany

/-- The search starts from the estimate. -/
theorem capacity_eq_trimSlots (pageSize : UInt64) (share : objectSize.toNat < 2 ^ 64 - 1) :
    capacity pageSize objectSize =
      trimSlots pageSize objectSize (slotEstimate pageSize objectSize) := by
  have header : headerSize.toNat = 32 := rfl
  have most : maxSlots.toNat = 255 := rfl
  have cost : (objectSize + 1).toNat = objectSize.toNat + 1 := by
    rw [UInt64.toNat_add, UInt64.toNat_one, Nat.mod_eq_of_lt (by omega)]
  have first : checkedAdd objectSize 1 = .ok (objectSize + 1) :=
    checkedAdd_eq_ok_iff.2 cost.symm
  have least : (min headerSize pageSize).toNat = min 32 pageSize.toNat := by
    rw [toNat_min, header]
  have room : (pageSize - min headerSize pageSize).toNat = pageSize.toNat - 32 := by
    rw [UInt64.toNat_sub_of_le _ _ (by rw [UInt64.le_iff_toNat_le, least]; omega), least]
    omega
  have tries : (min ((pageSize - min headerSize pageSize) / (objectSize + 1)) maxSlots).toNat =
      slotEstimate pageSize objectSize := by
    rw [toNat_min, UInt64.toNat_div, room, cost, most, slotEstimate]
  simp only [capacity, first, bind, Except.bind, tries]

/-- The objects of the estimate, with their table bytes, leave room for the header. -/
theorem slotEstimate_mul_le (pageSize objectSize : UInt64) :
    slotEstimate pageSize objectSize * (objectSize.toNat + 1) ≤ pageSize.toNat - 32 :=
  Nat.le_trans (Nat.mul_le_mul_right _ (Nat.min_le_left _ _)) (Nat.div_mul_le_self _ _)

theorem slotEstimate_le (pageSize objectSize : UInt64) : slotEstimate pageSize objectSize ≤ 255 :=
  Nat.min_le_right _ _

/-- The estimate excludes no number of slots that fits. -/
theorem HoldsSlots.le_slotEstimate (h : HoldsSlots pageSize objectSize slots)
    (few : slots ≤ 255) : slots ≤ slotEstimate pageSize objectSize :=
  Nat.le_min.2 ⟨(Nat.le_div_iff_mul_le (Nat.succ_pos _)).2 h.mul_succ_le, few⟩

/-- The capacity is the greatest number of slots, at most `maxSlots`, that fits,
and zero if none does. -/
theorem capacity_greatest (page : pageSize.toNat ≤ 2 ^ 64 - 16)
    (share : objectSize.toNat < 2 ^ 64 - 1) :
    ∃ kept, capacity pageSize objectSize = .ok kept ∧ kept.toNat ≤ 255 ∧
      (kept.toNat = 0 ∨ HoldsSlots pageSize objectSize kept.toNat) ∧
      ∀ other ≤ 255, HoldsSlots pageSize objectSize other → other ≤ kept.toNat := by
  have most := slotEstimate_le pageSize objectSize
  obtain ⟨kept, found, le, holds, greatest⟩ :=
    trimSlots_greatest objectSize page most (slotEstimate_mul_le pageSize objectSize)
  refine ⟨kept, (capacity_eq_trimSlots pageSize share).trans found, Nat.le_trans le most, holds,
    ?_⟩
  intro other few fits
  exact greatest other (fits.le_slotEstimate few) fits

/-- Where the end of the last slot is computed, it is the sum of the natural numbers. -/
theorem toNat_of_objectsEnd {stop : UInt64} (few : slots ≤ 255)
    (ends : objectsEnd (UInt64.ofNat slots) objectSize = .ok stop) :
    stop.toNat = firstSlot slots + slots * objectSize.toNat := by
  have value : (UInt64.ofNat slots).toNat = slots := by
    rw [UInt64.toNat_ofNat', Nat.mod_eq_of_lt (by omega)]
  have begin : (UInt64.ofNat (firstSlot slots)).toNat = firstSlot slots := by
    have bound := firstSlot_le slots
    rw [UInt64.toNat_ofNat', Nat.mod_eq_of_lt (by omega)]
  rw [objectsEnd, objectsOffset_eq (by omega), value] at ends
  obtain ⟨start, offset, ends⟩ := bind_eq_ok_iff.1 ends
  cases offset
  obtain ⟨length, product, sum⟩ := bind_eq_ok_iff.1 ends
  rw [checkedMul_eq_ok_iff, value] at product
  rw [checkedAdd_eq_ok_iff, begin, ← product] at sum
  exact sum.symm

/-- Trimming that ends, and leaves some slots, leaves slots that fit.  Nothing is asked of the
page. -/
theorem holds_of_trimSlots {kept : UInt64} (few : slots ≤ 255)
    (ends : trimSlots pageSize objectSize slots = .ok kept) (some : kept ≠ 0) :
    kept.toNat ≤ slots ∧ HoldsSlots pageSize objectSize kept.toNat := by
  induction slots with
  | zero =>
    cases ends
    exact absurd rfl some
  | succ slots ih =>
    obtain ⟨stop, last, ends⟩ := bind_eq_ok_iff.1 ends
    split at ends
    · rename_i fits
      cases ends
      have value : (UInt64.ofNat (slots + 1)).toNat = slots + 1 := by
        rw [UInt64.toNat_ofNat', Nat.mod_eq_of_lt (by omega)]
      rw [UInt64.le_iff_toNat_le, toNat_of_objectsEnd few last] at fits
      rw [value]
      exact ⟨Nat.le_refl _, fits⟩
    · obtain ⟨le, holds⟩ := ih (Nat.le_of_succ_le few) ends
      exact ⟨Nat.le_succ_of_le le, holds⟩

/-- A capacity that is computed is a number of slots that fits, whatever the page. -/
theorem holds_of_capacity {kept : UInt64} (ends : capacity pageSize objectSize = .ok kept)
    (some : kept ≠ 0) : kept.toNat ≤ 255 ∧ HoldsSlots pageSize objectSize kept.toNat := by
  have most : maxSlots.toNat = 255 := rfl
  obtain ⟨share, _, ends⟩ := bind_eq_ok_iff.1 ends
  have few : (min ((pageSize - min headerSize pageSize) / share) maxSlots).toNat ≤ 255 := by
    rw [toNat_min, most]
    exact Nat.min_le_right _ _
  obtain ⟨le, holds⟩ := holds_of_trimSlots few ends some
  exact ⟨Nat.le_trans le few, holds⟩

end Search

end SlabHeap
