import SlabHeap.Checked

/-!
# Alignment

Rounding an address down or up to a multiple of an alignment, by clearing the
bits below it.  The bit formulas accept any word as the alignment, also one that
is no power of two, and stop at a fault where a step of the formula would wrap.
So an alignment of zero is always a fault, and rounding up asks for the sum of
position and alignment to fit, one more than the result needs.

The main statement is `toNat_clearBelow`: for a power of two, clearing the bits
below it is rounding down to a multiple.  For a power of two every formula
answers (`alignDown_eq_ok`, `isAligned_eq_ok`), rounding up where its sum fits
(`alignUp_eq_ok`).
-/

namespace SlabHeap

/-- Granularity of object sizes, and the alignment of every object. -/
def objectAlign : UInt64 := 16

/-- A position with the bits below an alignment cleared.  Nothing is checked. -/
def clearBelow (position align : UInt64) : UInt64 := position &&& ~~~(align - 1)

/-- The greatest multiple of the alignment that is not above the position. -/
def alignDown (position align : UInt64) : Except Fault UInt64 := do
  let _ ← checkedSub align 1
  return clearBelow position align

/-- The least multiple of the alignment that is not below the position. -/
def alignUp (position align : UInt64) : Except Fault UInt64 := do
  let past ← checkedAdd position align
  let last ← checkedSub past 1
  alignDown last align

/-- Whether the position is a multiple of the alignment. -/
def isAligned (position align : UInt64) : Except Fault Bool := do
  let mask ← checkedSub align 1
  return position &&& mask == 0

/-- A word splits into the bits under a mask and the bits outside it. -/
theorem toNat_mask_add_toNat_rest (position mask : UInt64) :
    (position &&& mask).toNat + (position &&& ~~~mask).toNat = position.toNat := by
  have apart : (position &&& mask).toBitVec &&& (position &&& ~~~mask).toBitVec = 0#64 := by
    ext i hi
    simp
    cases position.toBitVec[i] <;> simp
  have together :
      (position &&& mask).toBitVec ||| (position &&& ~~~mask).toBitVec = position.toBitVec := by
    ext i hi
    simp
    cases position.toBitVec[i] <;> cases mask.toBitVec[i] <;> rfl
  have sum := BitVec.toNat_add_of_and_eq_zero apart
  rw [BitVec.add_eq_or_of_and_eq_zero _ _ apart, together] at sum
  exact sum.symm

/-- Under the mask of a power of two stands the remainder by it. -/
theorem toNat_and_pred_of_pow {position align : UInt64} (h : align.toNat.isPowerOfTwo) :
    (position &&& (align - 1)).toNat = position.toNat % align.toNat := by
  obtain ⟨k, h⟩ := h
  have one : (1 : UInt64) ≤ align := by
    rw [UInt64.le_iff_toNat_le, h]
    exact Nat.one_le_two_pow
  rw [UInt64.toNat_and, UInt64.toNat_sub_of_le _ _ one, h]
  exact Nat.and_two_pow_sub_one_eq_mod _ _

/-- For a power of two, clearing the bits below it rounds down to a multiple. -/
theorem toNat_clearBelow {position align : UInt64} (h : align.toNat.isPowerOfTwo) :
    (clearBelow position align).toNat = position.toNat / align.toNat * align.toNat := by
  have split := toNat_mask_add_toNat_rest position (align - 1)
  rw [toNat_and_pred_of_pow h] at split
  have whole := Nat.mod_add_div position.toNat align.toNat
  rw [clearBelow, Nat.mul_comm]
  omega

/-! ## Powers of two -/

section PowerOfTwo

variable {align position : UInt64} (power : align.toNat.isPowerOfTwo)

include power

/-- Rounding down by a power of two clears bits and does not fault. -/
theorem alignDown_eq_ok (position : UInt64) :
    alignDown position align = .ok (clearBelow position align) := by
  obtain ⟨counted, _⟩ := checkedSub_one (Nat.pos_of_isPowerOfTwo power)
  simp only [alignDown, counted, bind, Except.bind, pure, Except.pure]

/-- Rounding up by a power of two, where the sum fits in a word. -/
theorem alignUp_eq_ok (fits : position.toNat + align.toNat < UInt64.size) :
    ∃ up, alignUp position align = .ok up ∧
      up.toNat = (position.toNat + align.toNat - 1) / align.toNat * align.toNat := by
  have pos := Nat.pos_of_isPowerOfTwo power
  obtain ⟨first, sum⟩ := checkedAdd_of_lt fits
  obtain ⟨second, last⟩ := checkedSub_one (a := position + align) (by omega)
  rw [sum] at last
  refine ⟨clearBelow (position + align - 1) align, ?_, ?_⟩
  · simp only [alignUp, first, second, bind, Except.bind, alignDown_eq_ok power]
  · rw [toNat_clearBelow power, ← last, Nat.add_sub_cancel]

/-- The mask test is the test of the remainder. -/
theorem isAligned_eq_ok (position : UInt64) :
    isAligned position align = .ok (decide (position.toNat % align.toNat = 0)) := by
  obtain ⟨counted, _⟩ := checkedSub_one (Nat.pos_of_isPowerOfTwo power)
  have rest : (position &&& (align - 1)).toNat = position.toNat % align.toNat :=
    toNat_and_pred_of_pow power
  simp only [isAligned, counted, bind, Except.bind, pure, Except.pure, Except.ok.injEq]
  rw [← rest, Bool.eq_iff_iff, beq_iff_eq, decide_eq_true_iff, ← UInt64.toNat_inj,
    UInt64.toNat_zero]

end PowerOfTwo

end SlabHeap
