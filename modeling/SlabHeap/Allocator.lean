import SlabHeap.CacheTable

/-!
# Object allocators

An allocator serves requests of any size.  It rounds a request to its class,
finds or creates the cache of that class, and lets the cache serve an object.
A freed object finds its way back by its address alone: the slab of its page
notes the object size, and that names the class.

Before initialization nothing is served or freed.  Teardown drops the caches and
leaves the allocator uninitialized, and pages whose objects are still live stay
where they are.

`alloc` answers with an allocator also where it is refused, since a cache may
have been created before its first page was refused.
-/

namespace SlabHeap

/-- An allocator of small objects. -/
structure Allocator where
  /-- Its caches. -/
  table : CacheTable := {}
  /-- Whether it serves requests. -/
  initialized : Bool := false
  deriving DecidableEq, Repr

namespace Allocator

open HeapM

variable {σ : Type}

/-- Open the allocator for use. -/
def init (allocator : Allocator) : HeapM σ Allocator := do
  if allocator.initialized then
    report .alreadyInitialized
    return allocator
  report (.initialized headerSize bootstrapClass.size)
  return { table := allocator.table.register, initialized := true }

/-- The statistics of the cache that serves a size, if it was created. -/
def stats (allocator : Allocator) (store : CacheStore) (size : UInt64) :
    Except Fault (Option CacheStats) := do
  match SizeClass.ofRequest? size with
  | none => return none
  | some cls =>
    let ref? ← allocator.table.find store cls
    return ref?.map fun ref => (allocator.table.cache store ref).stats

/-- The statistics of all caches. -/
def allStats (allocator : Allocator) (store : CacheStore) : Except Fault (List CacheStats) := do
  return (← allocator.table.caches store).map Cache.stats

variable [PageSource σ]

/-- Serve an object of a class. -/
def allocOf (allocator : Allocator) (pageSize : PageSize) (cls : SizeClass) :
    HeapM σ (Except AllocError UInt64 × Allocator) := do
  match ← allocator.table.provide pageSize cls with
  | (.error error, table) =>
    report (.cacheUnavailable cls.size error)
    return (.error error, { allocator with table })
  | (.ok ref, table) =>
    match ← table.allocFrom pageSize ref with
    | .error error => return (.error error, { allocator with table })
    | .ok (object, table) => return (.ok object, { allocator with table })

/-- Serve an object of at least the given size. -/
def alloc (allocator : Allocator) (pageSize : PageSize) (size : UInt64) :
    HeapM σ (Except AllocError UInt64 × Allocator) := do
  unless allocator.initialized do
    report .notInitialized
    return (.error .noMemory, allocator)
  if size < minObjectSize then report (.raised size minObjectSize)
  match SizeClass.ofRequest? size with
  | none =>
    report (.tooLarge size maxObjectSize)
    return (.error .invalidParam, allocator)
  | some cls => allocator.allocOf pageSize cls

/-- Free the object at an address. -/
def free (allocator : Allocator) (pageSize : PageSize) (object : UInt64) :
    HeapM σ Allocator := do
  unless allocator.initialized do
    report .freedTooEarly
    return allocator
  let slab ← check (Slab.containing object pageSize.bytes)
  let cls ← check (SizeClass.ofRounded (slab.objectSize (← memory)))
  match ← check (allocator.table.find (← get).store cls) with
  | some ref => return { allocator with table := ← allocator.table.freeTo pageSize ref object }
  | none =>
    report (.noCacheForObject cls.size object)
    return allocator

/-- Drop every cache and close the allocator. -/
def teardown (allocator : Allocator) (pageSize : PageSize) : HeapM σ Allocator := do
  if allocator.initialized then
    return { table := ← allocator.table.reset pageSize, initialized := false }
  else
    return allocator

end Allocator

end SlabHeap
