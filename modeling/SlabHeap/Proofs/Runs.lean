import Mathlib.Algebra.Group.Nat.Defs
import Mathlib.Data.Set.Function
import Mathlib.Data.Set.Lattice
import Mathlib.Order.CompletePartialOrder
import SlabHeap.PageSize
import SlabHeap.Memory

/-!
# Runs and pages as sets of addresses

What an operation leaves alone is stated by sets of addresses: two memories
agree on a set, `Set.EqOn memory'.byte memory.byte region`.  The sets are runs
of bytes (`Memory.run`) and whole pages (`PageSize.page`).  A write changes its
own run at most (`Memory.eqOn_setBytes`), and what is read from a run depends on
that run alone (`Memory.word_congr`) and decides its bytes (`Memory.eqOn_of_word`).

A page is known by its aligned address, and an address lies in exactly one page,
the one that starts at `PageSize.pageOf` (`PageSize.mem_page_iff`).  So pages that
start at different addresses are disjoint.
-/

namespace SlabHeap

namespace Memory

/-- The addresses of the run of `count` bytes at `start`. -/
def run (start : UInt64) (count : Nat) : Set UInt64 :=
  {address | (address - start).toNat < count}

variable {memory memory' : Memory} {a b : UInt64} {m n : Nat}

theorem mem_run : b ∈ run a n ↔ (b - a).toNat < n := Iff.rfl

theorem self_mem_run (h : 0 < n) : a ∈ run a n := by
  rw [mem_run, UInt64.sub_self]
  exact h

theorem run_mono (h : m ≤ n) : run a m ⊆ run a n := by
  intro address mem
  exact Nat.lt_of_lt_of_le mem h

/-- A run at an offset lies in the run that it ends in. -/
theorem run_offset_subset {i : UInt64} (h : i.toNat + m ≤ n) : run (a + i) m ⊆ run a n := by
  intro address mem
  have split : address - a = address - (a + i) + i := by grind
  have bound : (address - a).toNat ≤ (address - (a + i)).toNat + i.toNat := by
    rw [split, UInt64.toNat_add]
    exact Nat.mod_le _ _
  rw [mem_run] at mem ⊢
  omega

/-- Runs that are disjoint and not empty do not meet. -/
theorem apart_of_disjoint_run (first : 0 < m) (second : 0 < n)
    (h : Disjoint (run a m) (run b n)) : Apart a m b n :=
  ⟨Nat.le_of_not_lt fun inside => Set.disjoint_left.1 h inside (self_mem_run second),
    Nat.le_of_not_lt fun inside => Set.disjoint_left.1 h (self_mem_run first) inside⟩

/-! ## Agreement of memories -/

/-- A write changes the bytes of its run only. -/
theorem eqOn_setBytes (memory : Memory) (address : UInt64) (values : List UInt8) :
    Set.EqOn (memory.setBytes address values).byte memory.byte (run address values.length)ᶜ := by
  intro other outside
  exact byte_setBytes_of_le memory address other values (Nat.le_of_not_lt outside)

theorem eqOn_setWord (memory : Memory) (address value : UInt64) :
    Set.EqOn (memory.setWord address value).byte memory.byte (run address 8)ᶜ :=
  eqOn_setBytes memory address (bytesOfWord value)

theorem eqOn_setByte (memory : Memory) (address : UInt64) (value : UInt8) :
    Set.EqOn (memory.setByte address value).byte memory.byte (run address 1)ᶜ :=
  eqOn_setBytes memory address [value]

theorem bytesAt_congr (same : Set.EqOn memory'.byte memory.byte (run a n)) :
    memory'.bytesAt a n = memory.bytesAt a n := by
  apply List.map_congr_left
  intro i mem
  apply same
  have inside : i < n := List.mem_range.1 mem
  rw [mem_run, show a + UInt64.ofNat i - a = UInt64.ofNat i by grind, UInt64.toNat_ofNat']
  exact Nat.lt_of_le_of_lt (Nat.mod_le _ _) inside

/-- A word depends on its own eight bytes. -/
theorem word_congr (same : Set.EqOn memory'.byte memory.byte (run a 8)) :
    memory'.word a = memory.word a := by
  rw [word, word, bytesAt_congr same]

/-! ## Bytes decided by what is read -/

/-- A run decides its bytes. -/
theorem eqOn_of_bytesAt (same : memory'.bytesAt a n = memory.bytesAt a n) :
    Set.EqOn memory'.byte memory.byte (run a n) := by
  intro address inside
  have position : (address - a).toNat < n := inside
  have place : a + UInt64.ofNat (address - a).toNat = address := by
    rw [UInt64.ofNat_toNat]
    grind
  have digit := congrArg (·[(address - a).toNat]?) same
  simp only [bytesAt, List.getElem?_map, List.getElem?_range position, Option.map_some, place]
    at digit
  exact Option.some.inj digit

theorem eqOn_of_byte (same : memory'.byte a = memory.byte a) :
    Set.EqOn memory'.byte memory.byte (run a 1) := by
  have start : a + UInt64.ofNat 0 = a := UInt64.add_zero a
  refine eqOn_of_bytesAt ?_
  simp only [bytesAt, List.range_one, List.map_cons, List.map_nil, start, same]

/-- The number that bytes stand for has no more digits than there are bytes. -/
theorem foldr_bytes_lt (bytes : List UInt8) :
    bytes.foldr (fun byte rest => byte.toNat + 256 * rest) 0 < 256 ^ bytes.length := by
  induction bytes with
  | nil => exact Nat.one_pos
  | cons byte rest ih =>
    have digit := byte.toNat_lt
    rw [List.foldr_cons, List.length_cons, Nat.pow_succ]
    omega

/-- As many bytes stand for different numbers. -/
theorem foldr_bytes_inj {bytes others : List UInt8} (length : bytes.length = others.length)
    (same : bytes.foldr (fun byte rest => byte.toNat + 256 * rest) 0 =
      others.foldr (fun byte rest => byte.toNat + 256 * rest) 0) : bytes = others := by
  induction bytes generalizing others with
  | nil => exact (List.length_eq_zero_iff.1 length.symm).symm
  | cons byte rest ih =>
    cases others with
    | nil => cases length
    | cons byte' rest' =>
      have digit := byte.toNat_lt
      have digit' := byte'.toNat_lt
      rw [List.foldr_cons, List.foldr_cons] at same
      have first : byte = byte' := UInt8.toNat_inj.1 (by omega)
      rw [first, ih (Nat.succ.inj length) (by omega)]

/-- Different bytes stand for different words. -/
theorem wordOfBytes_inj {bytes others : List UInt8} (length : bytes.length = 8)
    (length' : others.length = 8) (same : wordOfBytes bytes = wordOfBytes others) :
    bytes = others := by
  have number (values : List UInt8) (length : values.length = 8) : (wordOfBytes values).toNat =
      values.foldr (fun byte rest => byte.toNat + 256 * rest) 0 := by
    have bound := foldr_bytes_lt values
    rw [length] at bound
    rw [wordOfBytes, UInt64.toNat_ofNat', Nat.mod_eq_of_lt (by omega)]
  have numbers := congrArg UInt64.toNat same
  rw [number bytes length, number others length'] at numbers
  exact foldr_bytes_inj (length.trans length'.symm) numbers

/-- A word decides its eight bytes. -/
theorem eqOn_of_word (same : memory'.word a = memory.word a) :
    Set.EqOn memory'.byte memory.byte (run a 8) :=
  eqOn_of_bytesAt (wordOfBytes_inj (length_bytesAt _ _ _) (length_bytesAt _ _ _) same)

/-- A link decides the word that holds it. -/
theorem linkOfWord_inj {value other : UInt64} (same : linkOfWord value = linkOfWord other) :
    value = other := by
  unfold linkOfWord at same
  split at same <;> split at same <;> simp_all

end Memory

namespace PageSize

variable (size : PageSize) {base other address : UInt64}

/-- The number of bytes of a page. -/
def length : Nat := 2 ^ size.exponent.val

/-- The address of the page that an address lies in. -/
def pageOf (address : UInt64) : UInt64 := clearBelow address size.bytes

/-- The address is the address of a page. -/
def Aligned (base : UInt64) : Prop := size.pageOf base = base

/-- The addresses of a page. -/
def page (base : UInt64) : Set UInt64 := Memory.run base size.length

theorem length_pos : 0 < size.length := Nat.two_pow_pos _

theorem length_dvd : size.length ∣ 2 ^ 64 :=
  Nat.pow_dvd_pow 2 (Nat.le_of_lt size.exponent.isLt)

theorem length_lt : size.length < 2 ^ 64 := Nat.pow_lt_pow_right (by decide) size.exponent.isLt

theorem length_le : size.length ≤ 2 ^ 63 :=
  Nat.pow_le_pow_right (by decide) (Nat.le_of_lt_succ size.exponent.isLt)

theorem toNat_bytes_eq_length : size.bytes.toNat = size.length := by
  rw [toNat_bytes, Nat.one_shiftLeft, length]

theorem isPowerOfTwo_bytes : size.bytes.toNat.isPowerOfTwo :=
  ⟨size.exponent.val, size.toNat_bytes_eq_length⟩

theorem toNat_pageOf (address : UInt64) :
    (size.pageOf address).toNat = address.toNat / size.length * size.length := by
  rw [pageOf, toNat_clearBelow size.isPowerOfTwo_bytes, toNat_bytes_eq_length]

theorem pageOf_aligned (address : UInt64) : size.Aligned (size.pageOf address) := by
  rw [Aligned, ← UInt64.toNat_inj, toNat_pageOf, toNat_pageOf,
    Nat.mul_div_cancel _ size.length_pos]

theorem aligned_iff : size.Aligned base ↔ size.length ∣ base.toNat := by
  rw [Aligned, ← UInt64.toNat_inj, toNat_pageOf]
  exact ⟨fun h => ⟨_, (h.symm.trans (Nat.mul_comm _ _))⟩, Nat.div_mul_cancel⟩

variable {size}

/-- A page ends within the address space. -/
theorem Aligned.toNat_add_length_le (aligned : size.Aligned base) :
    base.toNat + size.length ≤ 2 ^ 64 := by
  obtain ⟨count, whole⟩ := size.aligned_iff.1 aligned
  obtain ⟨total, top⟩ := size.length_dvd
  have below : size.length * count < size.length * total := by
    rw [← whole, ← top]
    exact base.toNat_lt
  have fewer : count + 1 ≤ total := Nat.lt_of_mul_lt_mul_left below
  rw [whole, top, ← Nat.mul_succ]
  exact Nat.mul_le_mul_left _ fewer

/-- An address lies in the page that starts at its `pageOf`, and in no other. -/
theorem mem_page_iff (aligned : size.Aligned base) :
    address ∈ size.page base ↔ size.pageOf address = base := by
  have top := aligned.toNat_add_length_le
  obtain ⟨count, whole⟩ := size.aligned_iff.1 aligned
  have pos := size.length_pos
  have bound := address.toNat_lt
  rw [page, Memory.mem_run, ← UInt64.toNat_inj, toNat_pageOf, whole, UInt64.toNat_sub, whole,
    Nat.mul_comm size.length count]
  rw [whole, Nat.mul_comm] at top
  constructor
  · intro inside
    have lower : count * size.length ≤ address.toNat := by omega
    have upper : address.toNat < (count + 1) * size.length := by
      rw [Nat.succ_mul]
      omega
    rw [Nat.div_eq_of_lt_le lower upper]
  · intro same
    have split := Nat.div_add_mod address.toNat size.length
    have rest := Nat.mod_lt address.toNat pos
    rw [Nat.mul_comm, same] at split
    omega

theorem Aligned.disjoint_page (aligned : size.Aligned base) (aligned' : size.Aligned other)
    (differ : base ≠ other) : Disjoint (size.page base) (size.page other) := by
  rw [Set.disjoint_left]
  intro address inFirst inSecond
  rw [mem_page_iff aligned] at inFirst
  rw [mem_page_iff aligned'] at inSecond
  exact differ (inFirst.symm.trans inSecond)

theorem Aligned.isAligned_eq (aligned : size.Aligned base) :
    isAligned base size.bytes = .ok true := by
  have whole := Nat.mod_eq_zero_of_dvd (size.aligned_iff.1 aligned)
  rw [isAligned_eq_ok size.isPowerOfTwo_bytes, toNat_bytes_eq_length, decide_eq_true whole]

/-- What lies in the first bytes of a page lies in the page. -/
theorem Aligned.pageOf_of_mem_run (aligned : size.Aligned base) {count : Nat}
    (h : count ≤ size.length) (mem : address ∈ Memory.run base count) :
    size.pageOf address = base :=
  (mem_page_iff aligned).1 (Memory.run_mono h mem)

end PageSize

end SlabHeap
