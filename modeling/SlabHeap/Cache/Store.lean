import Std.Data.TreeMap.Lemmas
import SlabHeap.Cache.Basic
import SlabHeap.Chain

/-!
# Stored caches

Most caches live in objects themselves, in slots handed out by a bootstrap
cache, and are linked into chains by the addresses of those slots.  The store
holds the caches by address.  A slot that was handed out twice holds the cache
written last, also for a chain that reached it before.

The store is kept beside the bytes of memory, and writing a cache writes none of
them.  A slot that stores a cache, or stored one before it was handed out again,
reads as it did before the cache was written (zeros, if nothing else was), where on
a machine the fields of the cache would be read.  Nothing depends on that: while a
cache is stored in a slot, no operation on the heap and no caller that keeps to its
own objects writes a byte of the slot (`SharedHeap.Reachable.run_leaves_storages`).

A chain ends where a cache has no successor, and where nothing was written there
is none.  So a chain that ends has at most one cache more than were stored
(`CacheStore.length_le_chainBound`), and that bounds the walks along it:
`addresses` lists a chain and `find?` looks for the cache of an object size.
-/

namespace SlabHeap

/-- A cache in its slot, with the address of its successor in a chain. -/
structure StoredCache where
  /-- The cache. -/
  cache : Cache
  /-- The cache after it. -/
  next : Option UInt64 := none
  deriving DecidableEq, Repr

/-- The caches that live in slots, by address. -/
structure CacheStore where
  /-- The caches written so far. -/
  entries : Std.TreeMap UInt64 StoredCache := ∅

namespace CacheStore

/-! ## Slots -/

/-- The cache at an address.  Where none was written, zeroed memory reads as a
cache of size zero without a successor. -/
def read (store : CacheStore) (address : UInt64) : StoredCache :=
  store.entries.getD address { cache := { objectSize := 0 } }

/-- The store after a cache was written. -/
def write (store : CacheStore) (address : UInt64) (stored : StoredCache) : CacheStore :=
  ⟨store.entries.insert address stored⟩

theorem read_write (store : CacheStore) (address other : UInt64) (stored : StoredCache) :
    (store.write address stored).read other =
      if other = address then stored else store.read other := by
  simp [read, write, Std.TreeMap.getD_insert, eq_comm (a := other)]

/-! ## Chains -/

/-- The address of the cache after the one at an address. -/
def next (store : CacheStore) (address : UInt64) : Option UInt64 := (store.read address).next

/-- The most caches that a chain of this store can have. -/
def chainBound (store : CacheStore) : Nat := store.entries.size + 1

/-- The addresses of a chain. -/
def addresses (store : CacheStore) (link : Option UInt64) : Except Fault (List UInt64) :=
  listWithin store.next store.chainBound link

/-- The first address of a chain whose cache has objects of a given size. -/
def find? (store : CacheStore) (objectSize : UInt64) (link : Option UInt64) :
    Except Fault (Option UInt64) :=
  let holds (address : UInt64) : Bool := (store.read address).cache.objectSize == objectSize
  findWithin store.next holds store.chainBound link

/-- Only a cache that was stored has a successor. -/
theorem mem_of_isSome_next {store : CacheStore} {address : UInt64}
    (h : (store.next address).isSome) : address ∈ store.entries := by
  apply Decidable.byContradiction
  intro absent
  rw [next, read, Std.TreeMap.getD_eq_fallback absent] at h
  cases h

/-- A chain that ends is within the bound. -/
theorem length_le_chainBound {store : CacheStore} {link : Option UInt64}
    {addresses : List UInt64} (h : Chain store.next link addresses) :
    addresses.length ≤ store.chainBound := by
  have nodup : addresses.dropLast.Nodup := h.nodup.sublist (List.dropLast_sublist addresses)
  have stored : addresses.dropLast ⊆ store.entries.keys := fun address mem =>
    Std.TreeMap.mem_keys.2 (mem_of_isSome_next (h.isSome_next_of_mem_dropLast mem))
  have fewer := nodup.length_le_of_subset stored
  rw [List.length_dropLast, Std.TreeMap.length_keys] at fewer
  exact Nat.le_add_of_sub_le fewer

/-- On a chain that ends, `addresses` answers with its addresses. -/
theorem addresses_eq {store : CacheStore} {link : Option UInt64} {addresses : List UInt64}
    (h : Chain store.next link addresses) : store.addresses link = .ok addresses :=
  h.listWithin_eq (length_le_chainBound h)

/-- On a chain that ends, `find?` answers with the first fitting address. -/
theorem find?_eq {store : CacheStore} {link : Option UInt64} {addresses : List UInt64}
    (h : Chain store.next link addresses) (objectSize : UInt64) :
    store.find? objectSize link =
      .ok (addresses.find? fun address => (store.read address).cache.objectSize == objectSize) :=
  h.findWithin_eq _ (length_le_chainBound h)

end CacheStore

end SlabHeap
