import Mathlib.Order.Bounds.Basic
import SlabHeap.Proofs.AllocatorRefinement

/-!
# The capacity is the best one

A page size up to the last multiple of 16 and an object size below the greatest
word make up the `CapacityDomain`: for them the capacity of a page is computed
without overflow (`capacity_optimal`).  It is the greatest number of slots that fits, so
it grows with the page and shrinks with the object.

Page sizes and object sizes in use are multiples of 16.  The first slot then
stands at the least multiple of 16 behind the header and the table
(`firstSlot_le_of_dvd`), and the end of the page is such a multiple once the
slots are taken off.  So what the estimate leaves for padding is enough, and the
estimate is never lowered (`holdsSlots_slotEstimate`).
-/

namespace SlabHeap

/-- The sizes for which a capacity is computed without overflow. -/
structure CapacityDomain (pageSize objectSize : UInt64) : Prop where
  /-- Rounding up to a multiple of 16 within the page does not wrap. -/
  page : pageSize.toNat ≤ 2 ^ 64 - 16
  /-- An object and its table byte have a size. -/
  share : objectSize.toNat < 2 ^ 64 - 1

/-- The estimate is accepted at once: no slot is left, or the first end that is
computed lies within the page. -/
def Untrimmed (pageSize objectSize : UInt64) : Prop :=
  slotEstimate pageSize objectSize = 0 ∨
    ∃ stop, objectsEnd (UInt64.ofNat (slotEstimate pageSize objectSize)) objectSize = .ok stop ∧
      stop ≤ pageSize

variable {pageSize objectSize : UInt64}

/-! ## Multiples of the alignment -/

/-- The first slot stands at the least multiple of 16 behind the header and the table. -/
theorem firstSlot_le_of_dvd {slots stop : Nat} (room : 32 + slots ≤ stop) (multiple : 16 ∣ stop) :
    firstSlot slots ≤ stop := by
  unfold firstSlot
  omega

/-- Among multiples of 16, the estimate fits. -/
theorem holdsSlots_slotEstimate (page : 16 ∣ pageSize.toNat) (object : 16 ∣ objectSize.toNat)
    (some : 0 < slotEstimate pageSize objectSize) :
    HoldsSlots pageSize objectSize (slotEstimate pageSize objectSize) := by
  have estimate := slotEstimate_mul_le pageSize objectSize
  generalize slotEstimate pageSize objectSize = slots at some estimate ⊢
  have bodies : 16 ∣ slots * objectSize.toNat := Dvd.dvd.mul_left object slots
  rw [Nat.mul_succ] at estimate
  have start : firstSlot slots ≤ pageSize.toNat - slots * objectSize.toNat :=
    firstSlot_le_of_dvd (by omega) (Nat.dvd_sub page bodies)
  unfold HoldsSlots
  omega

/-- Among multiples of 16, the estimate is accepted at once. -/
theorem CapacityDomain.untrimmed (sizes : CapacityDomain pageSize objectSize)
    (page : 16 ∣ pageSize.toNat) (object : 16 ∣ objectSize.toNat) :
    Untrimmed pageSize objectSize := by
  rcases Nat.eq_zero_or_pos (slotEstimate pageSize objectSize) with none | some
  · exact .inl none
  · obtain ⟨stop, answer, value⟩ := objectsEnd_eq sizes.page (slotEstimate_le pageSize objectSize)
      (slotEstimate_mul_le pageSize objectSize) some
    refine .inr ⟨stop, answer, ?_⟩
    rw [UInt64.le_iff_toNat_le, value]
    exact holdsSlots_slotEstimate page object some

/-- Where the estimate is accepted at once, it is the capacity. -/
theorem Untrimmed.capacity_eq (untrimmed : Untrimmed pageSize objectSize)
    (share : objectSize.toNat < 2 ^ 64 - 1) :
    capacity pageSize objectSize = .ok (UInt64.ofNat (slotEstimate pageSize objectSize)) := by
  rw [capacity_eq_trimSlots pageSize share]
  rcases untrimmed with none | ⟨stop, answer, within⟩
  · rw [none]
    rfl
  · generalize slotEstimate pageSize objectSize = slots at answer ⊢
    cases slots with
    | zero => rfl
    | succ slots =>
      simp only [trimSlots, answer, bind, Except.bind, if_pos within]
      rfl

/-! ## The greatest number of slots -/

/-- The numbers of slots that a page can have. -/
def slotCounts (pageSize objectSize : UInt64) : Set Nat :=
  {slots | slots ≤ 255 ∧ (slots = 0 ∨ HoldsSlots pageSize objectSize slots)}

/-- The capacity is the greatest of the numbers of slots that a page can have. -/
theorem CapacityDomain.exists_isGreatest (sizes : CapacityDomain pageSize objectSize) :
    ∃ kept, capacity pageSize objectSize = .ok kept ∧
      IsGreatest (slotCounts pageSize objectSize) kept.toNat := by
  obtain ⟨kept, answer, few, holds, greatest⟩ := capacity_greatest sizes.page sizes.share
  refine ⟨kept, answer, ⟨few, holds⟩, ?_⟩
  rintro other ⟨otherFew, rfl | otherHolds⟩
  · exact Nat.zero_le _
  · exact greatest other otherFew otherHolds

/-- A larger page and smaller objects leave every number of slots possible. -/
theorem slotCounts_subset {pageSize' objectSize' : UInt64} (page : pageSize ≤ pageSize')
    (object : objectSize' ≤ objectSize) :
    slotCounts pageSize objectSize ⊆ slotCounts pageSize' objectSize' := by
  rintro slots ⟨few, rfl | holds⟩
  · exact ⟨few, .inl rfl⟩
  · exact ⟨few, .inr (Nat.le_trans (holds.of_size_le object) (UInt64.le_iff_toNat_le.1 page))⟩

/-- A larger page holds as many smaller objects. -/
theorem CapacityDomain.capacity_le {pageSize' objectSize' kept kept' : UInt64}
    (sizes : CapacityDomain pageSize objectSize) (sizes' : CapacityDomain pageSize' objectSize')
    (page : pageSize ≤ pageSize') (object : objectSize' ≤ objectSize)
    (answer : capacity pageSize objectSize = .ok kept)
    (answer' : capacity pageSize' objectSize' = .ok kept') : kept ≤ kept' := by
  obtain ⟨found, same, best⟩ := sizes.exists_isGreatest
  obtain ⟨found', same', best'⟩ := sizes'.exists_isGreatest
  obtain rfl := Except.ok.inj (answer.symm.trans same)
  obtain rfl := Except.ok.inj (answer'.symm.trans same')
  exact UInt64.le_iff_toNat_le.2 (best.mono best' (slotCounts_subset page object))

/-- A page size that is accepted has room for an object of every class. -/
theorem PageSize.exists_capacity_of_request {size : PageSize} {count bytes : UInt64}
    {cls : SizeClass} (accepted : capacity size.bytes maxObjectSize = .ok count)
    (room : 1 ≤ count) (request : SizeClass.ofRequest? bytes = some cls) :
    ∃ kept, cls.capacity size.bytes = .ok kept ∧ 1 ≤ kept := by
  have whole : CapacityDomain size.bytes maxObjectSize := ⟨toNat_bytes_le, by decide⟩
  have most : maxObjectSize.toNat = 4048 := rfl
  have small := (SizeClass.size_of_request request).2
  have fewer := UInt64.le_iff_toNat_le.1 small
  have sizes : CapacityDomain size.bytes cls.size := ⟨toNat_bytes_le, by omega⟩
  obtain ⟨kept, answer, _⟩ := sizes.exists_isGreatest
  exact ⟨kept, answer, UInt64.le_trans room
    (whole.capacity_le sizes (UInt64.le_refl _) small accepted answer)⟩

/-- **The capacity is the greatest number of slots that fits.**  For every page
size and object size of the domain it is computed without a fault, and it is
the greatest number, at most 255, whose slots end within the page.  It grows with
the page and shrinks with the object.  Where both sizes are multiples of 16 the
estimate is never lowered, and the capacity is a quotient.  Where a page has room
for the largest object, it has room for one of every class. -/
theorem capacity_optimal :
    (∀ pageSize objectSize, CapacityDomain pageSize objectSize →
      ∃ kept, capacity pageSize objectSize = .ok kept ∧
        IsGreatest {slots | slots ≤ 255 ∧ (slots = 0 ∨
          (32 + slots + 15) / 16 * 16 + slots * objectSize.toNat ≤ pageSize.toNat)} kept.toNat) ∧
    (∀ pageSize pageSize' objectSize kept kept', CapacityDomain pageSize objectSize →
      CapacityDomain pageSize' objectSize → pageSize ≤ pageSize' →
      capacity pageSize objectSize = .ok kept → capacity pageSize' objectSize = .ok kept' →
      kept ≤ kept') ∧
    (∀ pageSize objectSize objectSize' kept kept', CapacityDomain pageSize objectSize →
      CapacityDomain pageSize objectSize' → objectSize ≤ objectSize' →
      capacity pageSize objectSize = .ok kept → capacity pageSize objectSize' = .ok kept' →
      kept' ≤ kept) ∧
    (∀ pageSize objectSize, CapacityDomain pageSize objectSize → 16 ∣ pageSize.toNat →
      16 ∣ objectSize.toNat → Untrimmed pageSize objectSize ∧
        capacity pageSize objectSize =
          .ok (UInt64.ofNat (min 255 ((pageSize.toNat - 32) / (objectSize.toNat + 1))))) ∧
    (∀ (size : PageSize) count, capacity size.bytes maxObjectSize = .ok count → 1 ≤ count →
      ∀ bytes cls, SizeClass.ofRequest? bytes = some cls →
        ∃ kept, cls.capacity size.bytes = .ok kept ∧ 1 ≤ kept) := by
  refine ⟨fun _ _ sizes => sizes.exists_isGreatest, ?grows, ?shrinks, ?quotient, ?classes⟩
  case grows =>
    intro pageSize pageSize' objectSize kept kept' sizes sizes' larger
    exact sizes.capacity_le sizes' larger (UInt64.le_refl objectSize)
  case shrinks =>
    intro pageSize objectSize objectSize' kept kept' sizes sizes' larger answer answer'
    exact sizes'.capacity_le sizes (UInt64.le_refl pageSize) larger answer' answer
  case quotient =>
    intro pageSize objectSize sizes page object
    have untrimmed := sizes.untrimmed page object
    have answer := untrimmed.capacity_eq sizes.share
    rw [slotEstimate, Nat.min_comm] at answer
    exact ⟨untrimmed, answer⟩
  case classes =>
    intro size count accepted room bytes cls request
    exact PageSize.exists_capacity_of_request accepted room request

/-- A page of 4096 bytes holds 82 objects of 48 bytes, fewer than a page of twice
the size and more than if the objects had 64 bytes. -/
theorem capacity_optimal_default :
    CapacityDomain 4096 48 ∧ CapacityDomain 8192 48 ∧ CapacityDomain 4096 64 ∧
      (∃ kept, capacity 4096 48 = .ok kept ∧
        IsGreatest {slots | slots ≤ 255 ∧ (slots = 0 ∨ (32 + slots + 15) / 16 * 16 +
          slots * (48 : UInt64).toNat ≤ (4096 : UInt64).toNat)} kept.toNat) ∧
      (82 : UInt64) ≤ 166 ∧ (62 : UInt64) ≤ 82 ∧ Untrimmed 4096 48 ∧
      capacity PageSize.default.bytes maxObjectSize = .ok 1 ∧
      ∃ cls, SizeClass.ofRequest? 100 = some cls ∧
        ∃ kept, cls.capacity PageSize.default.bytes = .ok kept ∧ 1 ≤ kept := by
  have sizes : CapacityDomain 4096 48 := ⟨by decide, by decide⟩
  have larger : CapacityDomain 8192 48 := ⟨by decide, by decide⟩
  have fewer : CapacityDomain 4096 64 := ⟨by decide, by decide⟩
  have answer : capacity 4096 48 = .ok 82 := by decide +kernel
  have answerLarger : capacity 8192 48 = .ok 166 := by decide +kernel
  have answerFewer : capacity 4096 64 = .ok 62 := by decide +kernel
  have accepted : capacity PageSize.default.bytes maxObjectSize = .ok 1 := by decide +kernel
  obtain ⟨greatest, grows, shrinks, quotient, classes⟩ := capacity_optimal
  refine ⟨sizes, larger, fewer, greatest 4096 48 sizes, ?_, ?_, ?_, accepted, ⟨112, by decide⟩,
    by decide +kernel, ?_⟩
  · exact grows 4096 8192 48 82 166 sizes larger (by decide) answer answerLarger
  · exact shrinks 4096 48 64 82 62 sizes fewer (by decide) answer answerFewer
  · exact (quotient 4096 48 sizes (by decide) (by decide)).1
  · exact classes PageSize.default 1 accepted (by decide) 100 ⟨112, by decide⟩ (by decide +kernel)

end SlabHeap
