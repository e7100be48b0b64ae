import SlabHeap.Align

/-!
# Page sizes

A page size is a power of two that fits in a word.  The exponent is the datum,
so that every page size is one by construction, and `PageSize.toNat_bytes` gives
its number of bytes.
-/

namespace SlabHeap

/-- The size of the pages that slabs are carved from, a power of two. -/
structure PageSize where
  /-- The binary logarithm of the size. -/
  exponent : Fin 64
  deriving DecidableEq, Repr

namespace PageSize

/-- The size in bytes. -/
def bytes (size : PageSize) : UInt64 := UInt64.ofNat (1 <<< size.exponent.val)

/-- The page size of a given number of bytes, if that is a power of two. -/
def ofBytes? (bytes : UInt64) : Option PageSize :=
  ((List.finRange 64).map PageSize.mk).find? fun size => size.bytes == bytes

/-- The size used where nothing else is asked for. -/
def default : PageSize := ⟨12⟩

theorem toNat_bytes (size : PageSize) : size.bytes.toNat = 1 <<< size.exponent.val := by
  have fits : 1 <<< size.exponent.val < UInt64.size := by
    rw [Nat.one_shiftLeft]
    exact Nat.pow_lt_pow_right (by decide) size.exponent.isLt
  rw [bytes, UInt64.toNat_ofNat', Nat.mod_eq_of_lt fits]

theorem toNat_bytes_pos (size : PageSize) : 0 < size.bytes.toNat := by
  rw [toNat_bytes, Nat.one_shiftLeft]
  exact Nat.two_pow_pos _

/-- A number of bytes names at most one page size, and that one. -/
theorem bytes_of_ofBytes? {bytes : UInt64} {size : PageSize} (h : ofBytes? bytes = some size) :
    size.bytes = bytes := by
  have found := List.find?_some h
  simpa using found

example : default.bytes = 4096 := by decide

example : ofBytes? 3000 = none := by decide +kernel

end PageSize

end SlabHeap
