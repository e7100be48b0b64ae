import SlabHeap.Cache.Objects

/-!
# Groups of caches

A fixed number of caches that share a heap, and with it the page source.  The
caches are told apart by their position.
-/

namespace SlabHeap

/-- Caches over one heap. -/
structure CacheGroup (σ : Type) (count : Nat) where
  /-- The heap they share. -/
  heap : Heap σ
  /-- The caches. -/
  caches : Vector Cache count

namespace CacheGroup

variable {σ : Type} {count : Nat}

/-- Operations on a group of caches. -/
abbrev Op (σ : Type) (count : Nat) := EStateM Fault (CacheGroup σ count)

/-- Run an operation on the heap. -/
def onHeap {α : Type} (operation : HeapM σ α) : Op σ count α := fun group =>
  match operation group.heap with
  | .ok a heap => .ok a { group with heap }
  | .error fault heap => .error fault { group with heap }

variable [PageSource σ]

/-- Serve an object from one of the caches. -/
def alloc (size : PageSize) (i : Fin count) : Op σ count (Except AllocError UInt64) := do
  let (answer, cache) ← onHeap (((← get).caches.get i).alloc size)
  modify fun group => { group with caches := group.caches.set i cache i.isLt }
  return answer

/-- Put an object back into one of the caches. -/
def free (size : PageSize) (i : Fin count) (object : UInt64) : Op σ count Unit := do
  let cache ← onHeap (((← get).caches.get i).free size object)
  modify fun group => { group with caches := group.caches.set i cache i.isLt }

end CacheGroup

end SlabHeap
