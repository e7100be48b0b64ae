import SlabHeap.Cache.Objects

/-!
# The table of caches

An allocator finds the cache of a class in a hash table.  Each bucket heads a
chain of caches, the newest first, and a class belongs to the bucket that its
size names (`SizeClass.bucket`).

A new cache is stored in an object of the *bootstrap cache*, the cache of
`bootstrapClass`.  That one is a field of the table and never on a chain.  It
has to be registered before the first other cache is created, and until then
its own class has no cache either.

`find` looks a cache up, `provide` makes one where there is none, and `reset`
drops all of them and gives their storage back.  The walk of `reset`
reads the successor of a cache before it gives the storage of the cache back.
Each step frees an object of the bootstrap cache, which stops at a fault once no
object is live.  So the walk ends within one more step than there are live
objects, and a greater bound would make no difference (`dropWithin_eq`).
-/

namespace SlabHeap

/-- A cache of a table. -/
inductive CacheRef where
  /-- The bootstrap cache. -/
  | bootstrap
  /-- The cache stored at an address. -/
  | stored (address : UInt64)
  deriving DecidableEq, Repr

/-- A hash table of caches. -/
structure CacheTable where
  /-- The first cache of each bucket. -/
  buckets : Vector (Option UInt64) bucketCount := Vector.replicate bucketCount none
  /-- The cache whose objects store the others. -/
  bootstrap : Cache := { objectSize := bootstrapClass.size }
  /-- Whether the bootstrap cache can be found. -/
  registered : Bool := false
  deriving DecidableEq, Repr

namespace CacheTable

open HeapM

variable {σ : Type}

/-! ## Looking up -/

/-- Let the bootstrap cache be found. -/
def register (table : CacheTable) : CacheTable := { table with registered := true }

/-- The cache of a class, if there is one. -/
def find (table : CacheTable) (store : CacheStore) (cls : SizeClass) :
    Except Fault (Option CacheRef) :=
  if cls = bootstrapClass then
    return if table.registered then some .bootstrap else none
  else
    return (← store.find? cls.size (table.buckets.get cls.bucket)).map .stored

/-- A cache that was found. -/
def cache (table : CacheTable) (store : CacheStore) : CacheRef → Cache
  | .bootstrap => table.bootstrap
  | .stored address => (store.read address).cache

/-- All caches that can be found: the bootstrap cache, and then those of each
bucket in the order of its chain. -/
def caches (table : CacheTable) (store : CacheStore) : Except Fault (List Cache) := do
  let chains ← table.buckets.toList.mapM store.addresses
  let stored := chains.flatten.map fun address => (store.read address).cache
  return if table.registered then table.bootstrap :: stored else stored

/-! ## Objects -/

/-- Replace a cache that was found. -/
def setCache (table : CacheTable) (ref : CacheRef) (cache : Cache) : HeapM σ CacheTable := do
  match ref with
  | .bootstrap => return { table with bootstrap := cache }
  | .stored address =>
    writeCache address { ← readCache address with cache }
    return table

variable [PageSource σ]

/-- Serve an object from a cache that was found.  One that is refused is as it was, and is not
written again. -/
def allocFrom (table : CacheTable) (size : PageSize) (ref : CacheRef) :
    HeapM σ (Except AllocError (UInt64 × CacheTable)) := do
  match ← (table.cache (← get).store ref).alloc size with
  | (.error error, _) => return .error error
  | (.ok object, cache) => return .ok (object, ← table.setCache ref cache)

/-- Put an object back into a cache that was found. -/
def freeTo (table : CacheTable) (size : PageSize) (ref : CacheRef) (object : UInt64) :
    HeapM σ CacheTable := do
  let cache ← (table.cache (← get).store ref).free size object
  table.setCache ref cache

/-! ## Creating and dropping caches -/

/-- Create the cache of a class in front of its bucket. -/
def create (table : CacheTable) (size : PageSize) (cls : SizeClass) :
    HeapM σ (Except AllocError CacheRef × CacheTable) := do
  unless table.registered do
    report .bootstrapMissing
    return (.error .invalidParam, table)
  match ← table.bootstrap.alloc size with
  | (.error error, bootstrap) => return (.error error, { table with bootstrap })
  | (.ok storage, bootstrap) =>
    unless ← check (isAligned storage 8) do throw .unalignedStorage
    writeCache storage
      { cache := { objectSize := cls.size }, next := table.buckets.get cls.bucket }
    report (.cacheCreated cls.size storage cls.bucket.val)
    return (.ok (.stored storage),
      { table with bootstrap, buckets := table.buckets.set cls.bucket (some storage) })

/-- The cache of a class, created if there is none, and the table in either case. -/
def provide (table : CacheTable) (size : PageSize) (cls : SizeClass) :
    HeapM σ (Except AllocError CacheRef × CacheTable) := do
  match ← check (table.find (← get).store cls) with
  | some ref => return (.ok ref, table)
  | none => table.create size cls

/-- The cache of a class, created if there is none, for callers that keep their own table where
no cache can be had. -/
def findOrCreate (table : CacheTable) (size : PageSize) (cls : SizeClass) :
    HeapM σ (Except AllocError (CacheRef × CacheTable)) := do
  let (answer, table) ← table.provide size cls
  return answer.map fun ref => (ref, table)

/-- Drop a stored cache and give its storage back to the bootstrap cache. -/
def drop (size : PageSize) (bootstrap : Cache) (address : UInt64) : HeapM σ Cache := do
  let cache := (← readCache address).cache
  if 0 < cache.live then
    report (.cacheDropped cache.objectSize cache.live cache.pages)
  bootstrap.free size address

/-- Drop the caches of a chain one after another, at most the given number. -/
def dropWithin (size : PageSize) : Nat → Cache → Option UInt64 → HeapM σ Cache
  | _, bootstrap, none => return bootstrap
  | 0, _, some _ => throw .endlessChain
  | left + 1, bootstrap, some address => do
    let next := (← readCache address).next
    dropWithin size left (← drop size bootstrap address) next

/-- Drop the caches of a chain. -/
def dropChain (size : PageSize) (bootstrap : Cache) (link : Option UInt64) : HeapM σ Cache :=
  dropWithin size (bootstrap.live.toNat + 1) bootstrap link

/-- Drop all caches.  Slabs that hold live objects are left alone. -/
def reset (table : CacheTable) (size : PageSize) : HeapM σ CacheTable := do
  let bootstrap ← table.buckets.toList.foldlM (dropChain size) table.bootstrap
  if 0 < bootstrap.live then
    report (.bootstrapKeeps bootstrap.live bootstrap.pages)
  return { bootstrap }

end CacheTable

end SlabHeap
