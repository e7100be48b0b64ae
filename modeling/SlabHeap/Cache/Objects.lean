import SlabHeap.Heap
import SlabHeap.PageSize
import SlabHeap.Slab.Slots

/-!
# The objects of a cache

`Cache.alloc` serves an object from the slab at the front of the space list, and
takes a fresh page only if no slab has room.  A slab that fills up leaves the
list.  `Cache.free` puts the object back into its slab.  A slab that was full
comes back to the front of the list, and one that became empty leaves it and its
page goes back to the page source.

A refusal by the page source is passed on.  The cache is answered in either
case, and the refusal comes before anything of it has changed
(`Cache.turnsDown_of_alloc`).
-/

namespace SlabHeap

namespace Cache

open HeapM

variable {σ : Type} [PageSource σ]

/-- The slab that serves the next object, carved from a fresh page if no slab
has room. -/
def openSlab (cache : Cache) (size : PageSize) : HeapM σ (Except AllocError Slab × Cache) := do
  match cache.space.head with
  | some slab => return (.ok slab, cache)
  | none =>
    match ← takePage with
    | .error error =>
      report (.noPageForSlab cache.objectSize error)
      return (.error error, cache)
    | .ok page =>
      let slab : Slab := ⟨page⟩
      let _ ← inMemory fun memory => slab.carve memory cache.objectSize size.bytes
      let space ← inMemory fun memory => cache.space.pushFront memory slab
      let pages ← check (checkedAdd cache.pages 1)
      return (.ok slab, { cache with space, pages })

/-- Serve an object. -/
def alloc (cache : Cache) (size : PageSize) : HeapM σ (Except AllocError UInt64 × Cache) := do
  match ← cache.openSlab size with
  | (.error error, cache) => return (.error error, cache)
  | (.ok slab, cache) =>
    match ← inMemory slab.take with
    | none => throw (.noFreeSlot slab.base)
    | some object =>
      let live ← check (checkedAdd cache.live 1)
      if slab.isFull (← memory) then
        let (_, space) ← inMemory cache.space.popFront
        return (.ok object, { cache with space, live })
      else
        return (.ok object, { cache with live })

/-- Put back an object. -/
def free (cache : Cache) (size : PageSize) (object : UInt64) : HeapM σ Cache := do
  let slab ← check (Slab.containing object size.bytes)
  let slot ← check (slab.slotOf (← memory) object)
  if cache.live = 0 then throw (.noLiveObjects cache.objectSize)
  let cache := { cache with live := cache.live - 1 }
  let cache ←
    if slab.isFull (← memory) then
      let space ← inMemory fun memory => cache.space.pushFront memory slab
      pure { cache with space }
    else pure cache
  inMemory fun memory => return ((), ← slab.release memory slot)
  if slab.isEmpty (← memory) then
    let (listed, space) ← inMemory fun memory => cache.space.remove memory slab
    unless listed do throw (.slabNotListed slab.base cache.objectSize)
    givePage slab.base
    let pages ← check (checkedSub cache.pages 1)
    return { cache with space, pages }
  else
    return cache

end Cache

end SlabHeap
