import SlabHeap.Event
import SlabHeap.PageSize

/-!
# Regions

A region of memory offered to a page pool.  What counts are the whole pages in
it: the start is rounded up and the end down to the page size.  A region that
reaches past the top of the address space, or whose start does when rounded up,
is turned down without a word.  One without a whole page, or one that starts at
address zero, is turned down with an event.
-/

namespace SlabHeap

/-- What a region offers. -/
inductive Region where
  /-- The region reaches past the top of the address space. -/
  | pastTop
  /-- The region from `start` to `stop` has no whole page that can be used. -/
  | tooSmall (start stop : UInt64)
  /-- The whole pages of the region, from `first` up to `stop`. -/
  | wholePages (first stop : UInt64)
  deriving DecidableEq, Repr

namespace Region

/-- What the region of a given start and length offers. -/
def ofBounds (size : PageSize) (start length : UInt64) : Region :=
  match checkedAdd start length, checkedAdd start (size.bytes - 1) with
  | .ok stop, .ok reach =>
    let first := clearBelow reach size.bytes
    let last := clearBelow stop size.bytes
    if start = 0 ∨ last ≤ first then .tooSmall start stop else .wholePages first last
  | _, _ => .pastTop

/-- The number of pages between two page boundaries. -/
def pageCount (size : PageSize) (first stop : UInt64) : UInt64 := (stop - first) / size.bytes

/-- What is reported about a region. -/
def event? (size : PageSize) : Region → Option Event
  | .pastTop => none
  | .tooSmall start stop => some (.regionTooSmall start stop)
  | .wholePages first stop => some (.pagesAdded first stop (pageCount size first stop))

/- A region that starts and ends in the middle of a page. -/
example : ofBounds PageSize.default 0x1010 0x3000 = .wholePages 0x2000 0x4000 := by decide +kernel

example : ofBounds PageSize.default 0xffffffffffffff00 0x10 = .pastTop := by decide +kernel

end Region

end SlabHeap
