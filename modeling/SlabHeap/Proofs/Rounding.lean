import Mathlib.Algebra.Order.Floor.Div
import Mathlib.Order.Bounds.Basic
import SlabHeap.Align

/-!
# Rounding by masks is rounding of numbers

For a power of two, `alignDown` is the greatest multiple of it that is not above a
position, and `alignUp` is the least one that is not below.  These two are taken
from the bit formulas (`isGreatest_clearBelow`, `isLeast_of_alignUp`).  All else
follows from them by order alone: positions round to themselves exactly if they
are multiples, and otherwise the two roundings are neighbours
(`eq_or_eq_add_of_bounds`).

Rounding up adds the whole alignment before it takes off one.  So it stops at a
fault one position earlier than the result asks for, also at the last multiple of
the address space.
-/

namespace SlabHeap

/-! ## Neighbouring multiples -/

/-- The multiples of a number that are not above another one. -/
def multiplesBelow (unit number : Nat) : Set Nat := {multiple | unit ∣ multiple ∧ multiple ≤ number}

/-- The multiples of a number that are not below another one. -/
def multiplesAbove (unit number : Nat) : Set Nat := {multiple | unit ∣ multiple ∧ number ≤ multiple}

section Multiples

variable {unit number down up : Nat}

theorem isGreatest_div_mul (pos : 0 < unit) (number : Nat) :
    IsGreatest (multiplesBelow unit number) (number / unit * unit) := by
  refine ⟨⟨Nat.dvd_mul_left unit _, Nat.div_mul_le_self number unit⟩, ?_⟩
  rintro _ ⟨⟨count, rfl⟩, below⟩
  rw [Nat.mul_comm] at below ⊢
  exact Nat.mul_le_mul_right unit ((Nat.le_div_iff_mul_le pos).2 below)

theorem isLeast_ceilDiv_mul (pos : 0 < unit) (number : Nat) :
    IsLeast (multiplesAbove unit number) ((number + unit - 1) / unit * unit) := by
  rw [← Nat.ceilDiv_eq_add_pred_div]
  refine ⟨⟨Nat.dvd_mul_left unit _, ?_⟩, ?_⟩
  · rw [Nat.mul_comm]
    exact le_smul_ceilDiv pos
  · rintro _ ⟨⟨count, rfl⟩, above⟩
    rw [Nat.mul_comm unit]
    exact Nat.mul_le_mul_right unit ((ceilDiv_le_iff_le_mul pos).2 above)

/-- A multiple is rounded to itself in both directions. -/
theorem eq_of_bounds_of_dvd (greatest : IsGreatest (multiplesBelow unit number) down)
    (least : IsLeast (multiplesAbove unit number) up) (multiple : unit ∣ number) :
    down = number ∧ up = number :=
  ⟨Nat.le_antisymm greatest.1.2 (greatest.2 ⟨multiple, Nat.le_refl number⟩),
    Nat.le_antisymm (least.2 ⟨multiple, Nat.le_refl number⟩) least.1.2⟩

/-- The two roundings agree exactly for multiples. -/
theorem eq_iff_dvd_of_bounds (greatest : IsGreatest (multiplesBelow unit number) down)
    (least : IsLeast (multiplesAbove unit number) up) : up = down ↔ unit ∣ number := by
  constructor
  · intro same
    have exact : number = down := Nat.le_antisymm (same ▸ least.1.2) greatest.1.2
    exact exact ▸ greatest.1.1
  · intro multiple
    obtain ⟨below, above⟩ := eq_of_bounds_of_dvd greatest least multiple
    exact above.trans below.symm

/-- The two roundings agree or are neighbouring multiples. -/
theorem eq_or_eq_add_of_bounds (pos : 0 < unit)
    (greatest : IsGreatest (multiplesBelow unit number) down)
    (least : IsLeast (multiplesAbove unit number) up) : up = down ∨ up = down + unit := by
  by_cases multiple : unit ∣ number
  · exact .inl ((eq_iff_dvd_of_bounds greatest least).2 multiple)
  · right
    have differ : up ≠ down := fun same => multiple ((eq_iff_dvd_of_bounds greatest least).1 same)
    have order : down ≤ up := Nat.le_trans greatest.1.2 least.1.2
    have next : unit ∣ down + unit := Nat.dvd_add greatest.1.1 (Nat.dvd_refl unit)
    -- the multiple after `down` is not below the number, since `down` is the greatest that is
    have past : number ≤ down + unit := by
      by_contra below
      have again := greatest.2 ⟨next, Nat.le_of_not_le below⟩
      omega
    have near : up ≤ down + unit := least.2 ⟨next, past⟩
    have step : unit ∣ up - down := Nat.dvd_sub least.1.1 greatest.1.1
    have far : unit ≤ up - down := Nat.le_of_dvd (by omega) step
    omega

end Multiples

/-! ## Words -/

section Words

variable {align position : UInt64}

theorem isGreatest_clearBelow (power : align.toNat.isPowerOfTwo) (position : UInt64) :
    IsGreatest (multiplesBelow align.toNat position.toNat) (clearBelow position align).toNat := by
  rw [toNat_clearBelow power]
  exact isGreatest_div_mul (Nat.pos_of_isPowerOfTwo power) position.toNat

/-- Rounding up faults exactly if the sum with the whole alignment does not fit. -/
theorem alignUp_eq_addOverflow_iff (power : align.toNat.isPowerOfTwo) :
    alignUp position align = .error .addOverflow ↔ 2 ^ 64 ≤ position.toNat + align.toNat := by
  constructor
  · intro fault
    by_contra fits
    obtain ⟨up, answer, _⟩ := alignUp_eq_ok power (Nat.lt_of_not_le fits)
    rw [fault] at answer
    cases answer
  · intro past
    have first : checkedAdd position align = .error .addOverflow :=
      if_neg (Nat.not_lt.2 past)
    simp only [alignUp, first, bind, Except.bind]

/-- Rounding up gives the least multiple that is not below, where it does not fault. -/
theorem exists_alignUp (power : align.toNat.isPowerOfTwo)
    (fits : position.toNat + align.toNat < 2 ^ 64) :
    ∃ up, alignUp position align = .ok up ∧
      IsLeast (multiplesAbove align.toNat position.toNat) up.toNat := by
  obtain ⟨up, answer, value⟩ := alignUp_eq_ok power fits
  refine ⟨up, answer, ?_⟩
  rw [value]
  exact isLeast_ceilDiv_mul (Nat.pos_of_isPowerOfTwo power) position.toNat

/-- Whatever rounding up answers is the least multiple that is not below. -/
theorem isLeast_of_alignUp (power : align.toNat.isPowerOfTwo) {up : UInt64}
    (answer : alignUp position align = .ok up) :
    IsLeast (multiplesAbove align.toNat position.toNat) up.toNat := by
  have fits : position.toNat + align.toNat < 2 ^ 64 := by
    by_contra past
    rw [(alignUp_eq_addOverflow_iff power).2 (Nat.le_of_not_lt past)] at answer
    cases answer
  obtain ⟨found, same, least⟩ := exists_alignUp power fits
  rw [answer] at same
  cases same
  exact least

/-- What rounding down answers. -/
theorem eq_clearBelow_of_alignDown (power : align.toNat.isPowerOfTwo) {down : UInt64}
    (answer : alignDown position align = .ok down) : down = clearBelow position align := by
  rw [alignDown_eq_ok power] at answer
  exact (Except.ok.inj answer).symm

theorem clearBelow_clearBelow (power : align.toNat.isPowerOfTwo) (position : UInt64) :
    clearBelow (clearBelow position align) align = clearBelow position align := by
  have greatest := isGreatest_clearBelow power position
  have again := isGreatest_clearBelow power (clearBelow position align)
  rw [← UInt64.toNat_inj]
  exact Nat.le_antisymm again.1.2 (again.2 ⟨greatest.1.1, Nat.le_refl _⟩)

theorem clearBelow_le_clearBelow (power : align.toNat.isPowerOfTwo) {other : UInt64}
    (le : position ≤ other) : clearBelow position align ≤ clearBelow other align := by
  rw [UInt64.le_iff_toNat_le] at le ⊢
  have wider : multiplesBelow align.toNat position.toNat ⊆ multiplesBelow align.toNat other.toNat :=
    fun _ ⟨multiple, below⟩ => ⟨multiple, Nat.le_trans below le⟩
  exact (isGreatest_clearBelow power position).mono (isGreatest_clearBelow power other) wider

end Words

/-! ## Rounding to multiples -/

/-- Rounding by an alignment is rounding to its multiples. -/
structure RoundsToMultiples (align : UInt64) : Prop where
  /-- Rounding down gives the greatest multiple that is not above the position. -/
  down : ∀ position, ∃ down, alignDown position align = .ok down ∧
    IsGreatest {multiple | align.toNat ∣ multiple ∧ multiple ≤ position.toNat} down.toNat
  /-- Rounding up faults exactly if the sum of position and alignment is no word. -/
  overflow : ∀ position, alignUp position align = .error .addOverflow ↔
    2 ^ 64 ≤ position.toNat + align.toNat
  /-- Otherwise it gives the least multiple that is not below the position. -/
  up : ∀ position, position.toNat + align.toNat < 2 ^ 64 → ∃ up, alignUp position align = .ok up ∧
    IsLeast {multiple | align.toNat ∣ multiple ∧ position.toNat ≤ multiple} up.toNat
  /-- The test says whether there is no remainder. -/
  aligned : ∀ position, isAligned position align = .ok (decide (position.toNat % align.toNat = 0))
  /-- What was rounded down stays. -/
  idempotent : ∀ position down, alignDown position align = .ok down →
    alignDown down align = .ok down
  /-- Rounding down keeps the order. -/
  monotone : ∀ position other down down', position ≤ other → alignDown position align = .ok down →
    alignDown other align = .ok down' → down ≤ down'
  /-- The two results are the same exactly for a position that passes the test. -/
  agree : ∀ position down up, alignDown position align = .ok down →
    alignUp position align = .ok up → (up = down ↔ isAligned position align = .ok true)
  /-- The two results are the same or one alignment apart. -/
  apart : ∀ position down up, alignDown position align = .ok down →
    alignUp position align = .ok up → up.toNat = down.toNat ∨ up.toNat = down.toNat + align.toNat

/-- **The mask formulas round to multiples.**  For every power of two and every position, the
formulas compute the nearest multiples, and rounding up faults exactly where the sum in it does
not fit in a word. -/
theorem roundsToMultiples_of_isPowerOfTwo {align : UInt64} (power : align.toNat.isPowerOfTwo) :
    RoundsToMultiples align where
  down position := ⟨clearBelow position align, alignDown_eq_ok power position,
    isGreatest_clearBelow power position⟩
  overflow _ := alignUp_eq_addOverflow_iff power
  up _ fits := exists_alignUp power fits
  aligned position := isAligned_eq_ok power position
  idempotent position down answer := by
    rw [eq_clearBelow_of_alignDown power answer, alignDown_eq_ok power,
      clearBelow_clearBelow power]
  monotone position other down down' le answer answer' := by
    rw [eq_clearBelow_of_alignDown power answer, eq_clearBelow_of_alignDown power answer']
    exact clearBelow_le_clearBelow power le
  agree position down up answer answer' := by
    have greatest := isGreatest_clearBelow power position
    have least := isLeast_of_alignUp power answer'
    rw [eq_clearBelow_of_alignDown power answer, isAligned_eq_ok power, Except.ok.injEq,
      decide_eq_true_iff, ← UInt64.toNat_inj, eq_iff_dvd_of_bounds greatest least]
    exact Nat.dvd_iff_mod_eq_zero
  apart position down up answer answer' := by
    rw [eq_clearBelow_of_alignDown power answer]
    exact eq_or_eq_add_of_bounds (Nat.pos_of_isPowerOfTwo power)
      (isGreatest_clearBelow power position) (isLeast_of_alignUp power answer')

/-- Pages of 4096 bytes: a position in the middle of a page, one at its start, and the last page of
the address space, which rounding up does not reach. -/
theorem roundsToMultiples_of_isPowerOfTwo_page :
    (4096 : UInt64).toNat.isPowerOfTwo ∧ RoundsToMultiples 4096 ∧
      alignDown 0x1234 4096 = .ok 0x1000 ∧ alignUp 0x1234 4096 = .ok 0x2000 ∧
      ((0x2000 : UInt64) = 0x1000 ↔ isAligned 0x1234 4096 = .ok true) ∧
      (0x1234 : UInt64) ≤ 0x3000 ∧ alignDown 0x3000 4096 = .ok 0x3000 ∧
      (0x1000 : UInt64) ≤ 0x3000 ∧
      alignUp 0xfffffffffffff000 4096 = .error .addOverflow ∧
      isAligned 0xfffffffffffff000 4096 = .ok true := by
  have power : (4096 : UInt64).toNat.isPowerOfTwo := ⟨12, by decide⟩
  have rounds := roundsToMultiples_of_isPowerOfTwo power
  have down : alignDown 0x1234 4096 = .ok 0x1000 := by decide
  have up : alignUp 0x1234 4096 = .ok 0x2000 := by decide
  have other : alignDown 0x3000 4096 = .ok 0x3000 := by decide
  have order : (0x1234 : UInt64) ≤ 0x3000 := by decide
  exact ⟨power, rounds, down, up, rounds.agree _ _ _ down up, order, other,
    rounds.monotone _ _ _ _ order down other, (rounds.overflow _).2 (by decide), by decide⟩

end SlabHeap
