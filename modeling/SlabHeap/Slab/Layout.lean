import SlabHeap.Align

/-!
# Layout of a slab

A slab is one page, cut into equal objects:

    header | one table byte for each slot | padding | slot 0 | slot 1 | ...

The header has the five fields listed in `Slab.Field`.  The table byte of a free
slot names the free slot after it, so a slot number has to fit in a byte beside
the end mark, and a slab never holds more than `maxSlots` objects.

`capacity` is the number of slots.  It starts from an estimate, in which an
object costs its own size and one table byte.  Aligning the first slot can push
the last one past the end of the page, so the estimate is lowered until
everything fits.  The lowering is a recursion on the number of slots.
-/

namespace SlabHeap

/-- The size of a slab's header. -/
def headerSize : UInt64 := 32

/-- The table byte that ends the free chain. -/
def tableEnd : UInt8 := 255

/-- The number of slots that table bytes can tell apart from the end mark. -/
def maxSlots : UInt64 := 255

/-- The offset of the first slot in a slab of the given number of slots. -/
def objectsOffset (slots : UInt64) : Except Fault UInt64 := do
  alignUp (← checkedAdd headerSize slots) objectAlign

/-- The offset of the end of the last slot. -/
def objectsEnd (slots objectSize : UInt64) : Except Fault UInt64 := do
  let start ← objectsOffset slots
  let length ← checkedMul slots objectSize
  checkedAdd start length

/-- The greatest number of slots, not above the given one, that fits in a page. -/
def trimSlots (pageSize objectSize : UInt64) : Nat → Except Fault UInt64
  | 0 => return 0
  | slots + 1 => do
    let stop ← objectsEnd (UInt64.ofNat (slots + 1)) objectSize
    if stop ≤ pageSize then return UInt64.ofNat (slots + 1)
    else trimSlots pageSize objectSize slots

/-- The number of objects of one size that a page holds as a slab. -/
def capacity (pageSize objectSize : UInt64) : Except Fault UInt64 := do
  let share ← checkedAdd objectSize 1
  let room := pageSize - min headerSize pageSize
  trimSlots pageSize objectSize (min (room / share) maxSlots).toNat

/-- The table of a slab whose slots are all free: each slot leads to the next
one, and the last to the end mark. -/
def freshTable (slots : Nat) : List UInt8 :=
  (List.range (slots - 1)).map (fun slot => UInt8.ofNat (slot + 1)) ++ [tableEnd]

example : freshTable 4 = [1, 2, 3, 255] := by decide

theorem length_freshTable {slots : Nat} (h : 0 < slots) : (freshTable slots).length = slots := by
  simp [freshTable]
  omega

end SlabHeap
