import SlabHeap.Fault

/-!
# Checked words

Every quantity of the heap is an unsigned 64-bit word, and the few counters kept
inside a slab are bytes.  The operations here refuse to wrap: they answer with
the exact result or stop at a fault.  Where wrapping is meant, the plain
operations of `UInt64` and `UInt8` are used instead.

Each operation has one law, which says when it answers and with what, in terms
of natural numbers: `checkedAdd_eq_ok_iff` and its companions.  Computations are
taken apart into their steps by `bind_eq_ok_iff`.
-/

namespace SlabHeap

/-- The sum of two words. -/
def checkedAdd (a b : UInt64) : Except Fault UInt64 :=
  if a.toNat + b.toNat < UInt64.size then .ok (a + b) else .error .addOverflow

/-- The difference of two words. -/
def checkedSub (a b : UInt64) : Except Fault UInt64 :=
  if b ≤ a then .ok (a - b) else .error .subOverflow

/-- The product of two words. -/
def checkedMul (a b : UInt64) : Except Fault UInt64 :=
  if a.toNat * b.toNat < UInt64.size then .ok (a * b) else .error .mulOverflow

/-- The remainder of two words. -/
def checkedMod (a b : UInt64) : Except Fault UInt64 :=
  if b = 0 then .error .remainderByZero else .ok (a % b)

/-- A byte counter moved up by one. -/
def checkedSucc (a : UInt8) : Except Fault UInt8 :=
  if a = 255 then .error .addOverflow else .ok (a + 1)

/-- Two steps answer exactly if the first one answers, and the second one does
so after it. -/
theorem bind_eq_ok_iff {α β : Type} {first : Except Fault α} {second : α → Except Fault β}
    {b : β} : first >>= second = .ok b ↔ ∃ a, first = .ok a ∧ second a = .ok b := by
  cases first with
  | error fault => simp [bind, Except.bind]
  | ok a => simp [bind, Except.bind]

/-- A sum answers with `c` exactly if `c` is the sum. -/
theorem checkedAdd_eq_ok_iff {a b c : UInt64} :
    checkedAdd a b = .ok c ↔ a.toNat + b.toNat = c.toNat := by
  have hc := c.toNat_lt_size
  unfold checkedAdd
  split
  · rename_i h
    rw [Except.ok.injEq, ← UInt64.toNat_inj, UInt64.toNat_add, Nat.mod_eq_of_lt h]
  · rename_i h
    simp only [reduceCtorEq, false_iff]
    omega

/-- A difference answers with `c` exactly if `c` makes up what is missing. -/
theorem checkedSub_eq_ok_iff {a b c : UInt64} :
    checkedSub a b = .ok c ↔ b.toNat + c.toNat = a.toNat := by
  unfold checkedSub
  split
  · rename_i h
    rw [Except.ok.injEq, ← UInt64.toNat_inj, UInt64.toNat_sub_of_le _ _ h]
    have := UInt64.le_iff_toNat_le.1 h
    omega
  · rename_i h
    simp only [reduceCtorEq, false_iff]
    rw [UInt64.le_iff_toNat_le] at h
    omega

/-- A sum that fits in a word is the answer. -/
theorem checkedAdd_of_lt {a b : UInt64} (h : a.toNat + b.toNat < UInt64.size) :
    checkedAdd a b = .ok (a + b) ∧ (a + b).toNat = a.toNat + b.toNat := by
  refine ⟨if_pos h, ?_⟩
  rw [UInt64.toNat_add]
  exact Nat.mod_eq_of_lt h

/-- A counter that is not at its end counts up. -/
theorem checkedAdd_one {a : UInt64} (h : a.toNat + 1 < UInt64.size) :
    checkedAdd a 1 = .ok (a + 1) ∧ (a + 1).toNat = a.toNat + 1 :=
  checkedAdd_of_lt h

/-- A counter that is not at zero counts down. -/
theorem checkedSub_one {a : UInt64} (h : 0 < a.toNat) :
    checkedSub a 1 = .ok (a - 1) ∧ (a - 1).toNat + 1 = a.toNat := by
  have one : (1 : UInt64) ≤ a := UInt64.le_iff_toNat_le.2 h
  refine ⟨if_pos one, ?_⟩
  rw [UInt64.toNat_sub_of_le _ _ one]
  exact Nat.sub_add_cancel h

/-- A product answers with `c` exactly if `c` is the product. -/
theorem checkedMul_eq_ok_iff {a b c : UInt64} :
    checkedMul a b = .ok c ↔ a.toNat * b.toNat = c.toNat := by
  have hc := c.toNat_lt_size
  unfold checkedMul
  split
  · rename_i h
    rw [Except.ok.injEq, ← UInt64.toNat_inj, UInt64.toNat_mul, Nat.mod_eq_of_lt h]
  · rename_i h
    simp only [reduceCtorEq, false_iff]
    omega

/-- A remainder answers exactly if the divisor is not zero. -/
theorem checkedMod_eq_ok_iff {a b c : UInt64} :
    checkedMod a b = .ok c ↔ b ≠ 0 ∧ a % b = c := by
  unfold checkedMod
  split <;> simp_all

/-- A counter answers with `c` exactly if `c` is one more. -/
theorem checkedSucc_eq_ok_iff {a c : UInt8} :
    checkedSucc a = .ok c ↔ a.toNat + 1 = c.toNat := by
  have ha := a.toNat_lt
  have hc := c.toNat_lt
  unfold checkedSucc
  split
  · rename_i h
    subst h
    simp only [reduceCtorEq, false_iff]
    intro h
    have : (255 : UInt8).toNat = 255 := rfl
    omega
  · rename_i h
    have hn : a.toNat ≠ 255 := fun e => h (UInt8.toNat_inj.1 e)
    rw [Except.ok.injEq, ← UInt8.toNat_inj, UInt8.toNat_add]
    have : (1 : UInt8).toNat = 1 := rfl
    omega

end SlabHeap
