import SlabHeap.Slab.SpaceList
import SlabHeap.SizeClass

/-!
# Caches

A cache owns every slab of one object size.  It knows the slabs with a free slot
and counts its pages and its live objects.  A slab without a free slot is on no
list, and comes back when one of its objects is freed.
-/

namespace SlabHeap

/-- The cache of one object size. -/
structure Cache where
  /-- The size of the objects. -/
  objectSize : UInt64
  /-- The slabs with a free slot. -/
  space : SpaceList := {}
  /-- The number of pages held as slabs. -/
  pages : UInt64 := 0
  /-- The number of objects handed out and not yet freed. -/
  live : UInt64 := 0
  deriving DecidableEq, Repr

/-- What a cache tells about itself. -/
structure CacheStats where
  /-- The size of the objects. -/
  objectSize : UInt64
  /-- The number of pages held as slabs. -/
  pages : UInt64
  /-- The number of objects handed out and not yet freed. -/
  live : UInt64
  /-- The number of slabs with a free slot. -/
  partialSlabs : UInt64
  /-- The slab that serves the next object. -/
  front : Option Slab
  deriving DecidableEq, Repr

/-- The statistics of a cache. -/
def Cache.stats (cache : Cache) : CacheStats where
  objectSize := cache.objectSize
  pages := cache.pages
  live := cache.live
  partialSlabs := cache.space.length
  front := cache.space.head

end SlabHeap
