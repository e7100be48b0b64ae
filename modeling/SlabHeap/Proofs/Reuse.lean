import SlabHeap.Proofs.FoundCaches
import SlabHeap.Proofs.Noninterference
import SlabHeap.Proofs.PageCalls
import SlabHeap.Proofs.RoundTrips

/-!
# Which object is served after a free

An object is freed, and then one of the same size is asked for.  The answer depends on where the
slab of the first object is then.  If another object keeps the slab in use, the first one is
served again exactly if the slab is in front of the list: it was there before, or it was full
and comes back to the front.  If nothing else is in the slab, its page goes back to the pool and
comes from there again when no other slab has room.  Then it is carved anew, and its first slot
is served.

`SharedHeap.Reachable.alloc_after_free` says so of reachable heaps, and that in the first case
the cache is as it was.
-/

namespace SlabHeap

variable {size : PageSize} {count : Nat}

/-! ## What can be seen of the cache -/

namespace SharedHeap

/-- What an allocator tells about the cache of a size, and the slabs on the list of the cache. -/
structure Lists (shared : SharedHeap (MeteredPool size) count) (i : Fin count) (bytes : UInt64)
    (stats : CacheStats) (listed : List Slab) : Prop where
  told : (shared.allocators.get i).stats shared.heap.store bytes = .ok (some stats)
  listed : SpaceList.Holds { head := stats.front, length := stats.partialSlabs }
    shared.heap.memory listed

/-- The slab of an object stays in use without the object, and it will be in front: it is there
already, or it is full. -/
def StaysInFront (shared : SharedHeap (MeteredPool size) count) (ledger : Ledger count)
    (storages : Fin count → List UInt64) (stats : CacheStats) (object : UInt64) : Prop :=
  ¬ ledger.Alone size storages object ∧
    ((Slab.mk (size.pageOf object)).isFull shared.heap.memory = true ∨
      stats.front = some ⟨size.pageOf object⟩)

/-- The slab of an object is not in use without the object, no other slab is listed, and the
object is in its first slot. -/
def StartsAnew (shared : SharedHeap (MeteredPool size) count) (ledger : Ledger count)
    (storages : Fin count → List UInt64) (listed : List Slab) (object : UInt64) : Prop :=
  ledger.Alone size storages object ∧ (∀ slab ∈ listed, slab = ⟨size.pageOf object⟩) ∧
    (Slab.mk (size.pageOf object)).objectBase shared.heap.memory = object

end SharedHeap

variable {view : SharedView count} {shared : SharedHeap (MeteredPool size) count}
  {ledger : Ledger count} {i : Fin count} {ref : CacheRef} {bytes object : UInt64}

theorem SharedView.Describes.lists (h : view.Describes shared) (finds : view.Finds i bytes ref) :
    shared.Lists i bytes ((view.cache i ref).stats size)
      ((view.cache i ref).room.map SlabView.slab) := by
  obtain ⟨cache, told, described⟩ := h.stats_of_finds finds
  rw [← described.stats_eq]
  exact ⟨told, described.space⟩

namespace CacheView

variable {view view' : CacheView} {front back : List SlabView} {free : List UInt64}

theorem slabs_congr (room : view'.room = view.room) (full : view'.full.Perm view.full) :
    view'.slabs.Perm view.slabs := by
  rw [slabs, slabs, room]
  exact List.Perm.append_left _ (full.map _)

/-- The order of the full slabs cannot be seen. -/
theorem stats_congr (sizes : view'.objectSize = view.objectSize) (room : view'.room = view.room)
    (full : view'.full.Perm view.full) : view'.stats size = view.stats size := by
  have slabs := slabs_congr room full
  have objects : view'.objects size = view.objects size := by
    rw [CacheView.objects, CacheView.objects, sizes]
    exact Multiset.coe_eq_coe.2 (slabs.flatMap_right _)
  rw [stats, stats, sizes, room, slabs.length_eq, objects]

namespace Located

variable (located : view.Located size object front free back) (regular : view.Regular size)

include located regular

/-- No other slab is listed. -/
theorem others_eq_nil_iff : front ++ back = [] ↔
    ∀ slab ∈ view.room.map SlabView.slab, slab = ⟨size.pageOf object⟩ := by
  constructor
  · intro none slab mem
    obtain ⟨slab, listed, rfl⟩ := List.mem_map.1 mem
    have member : slab ∈ (view.reopen (size.pageOf object)).room := by
      unfold reopen
      split
      · exact .tail _ listed
      · exact listed
    obtain ⟨rfl, rfl⟩ := List.append_eq_nil_iff.1 none
    rw [located.listed, List.nil_append, List.mem_singleton] at member
    rw [member]
    rfl
  · intro alone
    refine List.eq_nil_iff_forall_not_mem.2 fun slab mem => ?_
    have same := alone _ (List.mem_map_of_mem (located.mem_room regular mem))
    exact located.base_ne regular mem (congrArg Slab.base same)

/-- The first slot starts where the objects start. -/
theorem slotAt_eq_zero_iff {cache : Cache} {memory : Memory}
    (h : view.Describes size cache memory) : size.slotAt view.objectSize object = 0 ↔
      (Slab.mk (size.pageOf object)).objectBase memory = object := by
  have start : (Slab.mk (size.pageOf object)).objectBase memory =
      size.slotAddress view.objectSize (size.pageOf object) 0 := by
    refine (located.describes h.toHolds).baseNoted.trans ?_
    rw [PageSize.slotAddress, UInt64.toNat_zero, Nat.zero_mul, Nat.add_zero]
  have aligned := size.pageOf_aligned object
  rw [start]
  constructor
  · intro zero
    rw [← zero, located.address]
  · intro same
    exact (regular.fits.slotAddress_inj aligned aligned located.inRange regular.fits.zero_inRange
      (located.address.trans same.symm)).2

end Located

end CacheView

/-! ## The same in the view -/

namespace Ledger.Accounts

variable {front back : List SlabView} {free : List UInt64} (accounts : ledger.Accounts size view)
  (h : view.Describes shared) (finds : view.Finds i bytes ref)
  (located : (view.cache i ref).Located size object front free back)
  (own : object ∈ (view.cache i ref).objects size)

include accounts h finds own

/-- The slab of an object is emptied without the object if nothing else is in it. -/
theorem emptied_iff_alone :
    ((view.cache i ref).returned size object).Emptied size (size.pageOf object) ↔
      ledger.Alone size (fun j => (view.allocators j).table.order) object := by
  have held := finds.mem_caches h.sound h.regular
  have listed : view.cache i ref ∈ view.caches := SharedView.mem_caches.2 (.inl ⟨i, held⟩)
  have regular := h.regular_of_mem listed (CacheView.slabs_ne_nil_of_object own)
  rw [regular.emptied_iff_alone own, accounts.alone_iff h.houses listed own]

include located

theorem staysInFront_iff : shared.StaysInFront ledger (fun j => (view.allocators j).table.order)
    ((view.cache i ref).stats size) object ↔
      ¬ ((view.cache i ref).returned size object).Emptied size (size.pageOf object) ∧
        front = [] := by
  have held := finds.mem_caches h.sound h.regular
  have sound := (h.sound i).table.caches _ held
  have regular := (h.sound i).table.regular_of_mem (h.regular i) held
    (CacheView.slabs_ne_nil_of_object own)
  obtain ⟨cache, _, described⟩ := h.stats_of_finds finds
  have full := (located.describes described.toHolds).isFull_iff
  have front : ((view.cache i ref).stats size).front =
      ((view.cache i ref).room.map SlabView.slab).head? := rfl
  rw [SharedHeap.StaysInFront, accounts.emptied_iff_alone h finds own,
    located.front_eq_nil_iff regular, located.mem_full_iff regular sound.free, ← full, front]
  rfl

theorem startsAnew_iff : shared.StartsAnew ledger (fun j => (view.allocators j).table.order)
    ((view.cache i ref).room.map SlabView.slab) object ↔
      ((view.cache i ref).returned size object).Emptied size (size.pageOf object) ∧
        front ++ back = [] ∧ size.slotAt (view.cache i ref).objectSize object = 0 := by
  have held := finds.mem_caches h.sound h.regular
  have regular := (h.sound i).table.regular_of_mem (h.regular i) held
    (CacheView.slabs_ne_nil_of_object own)
  obtain ⟨cache, _, described⟩ := h.stats_of_finds finds
  rw [SharedHeap.StartsAnew, accounts.emptied_iff_alone h finds own,
    located.others_eq_nil_iff regular, located.slotAt_eq_zero_iff regular described]

end Ledger.Accounts

/-- A cache with the same slabs in another order has the same free slots, and so have all
others. -/
theorem Ledger.Accounts.freeSlots_setCache {shared' : SharedHeap (MeteredPool size) count}
    {pool : PoolView} {cache : CacheView} {page : UInt64} {free : List UInt64}
    (accounts : ledger.Accounts size view) (h : view.Describes shared)
    (finds : view.Finds i bytes ref)
    (h' : (view.setCache i ref pool cache).Describes shared')
    (sizes : cache.objectSize = (view.cache i ref).objectSize)
    (same : cache.slabs.Perm (view.cache i ref).slabs) (held : shared.HoldsPage ledger page)
    (slots : (Slab.mk page).FreeSlots shared.heap.memory free) :
    (Slab.mk page).FreeSlots shared'.heap.memory free := by
  obtain ⟨j, served, mem, listed⟩ := (accounts.holdsPage_and_freeSlots_iff h).1 ⟨held, slots⟩
  rcases finds.mem_caches_setCache h.sound h.regular mem with ⟨rfl, rfl⟩ | mem
  · obtain ⟨_, _, described⟩ := h'.stats_of_finds (finds.setCache h.sound h.regular sizes finds)
    rw [finds.cache_setCache h.sound h.regular] at described
    exact (described.slabs _ (same.mem_iff.2 listed)).freeChain
  · obtain ⟨_, described⟩ := (h'.allocators j).table.exists_cache mem
    exact (described.slabs _ listed).freeChain

/-! ## Freeing and serving -/

/-- Freeing to a cache and serving from it again, in memory. -/
theorem SharedView.Describes.exists_free_alloc {answer : Except AllocError UInt64}
    {cache : CacheView} {pool : PoolView} (fits : size.Fits maxObjectSize)
    (h : view.Describes shared) (accounts : ledger.Accounts size view)
    (finds : view.Finds i bytes ref) (own : object ∈ (view.cache i ref).objects size)
    (permitted : ledger.Permits (.request (.free i object)))
    (run : ((view.cache i ref).free size object >>= fun freed => freed.alloc size).run view.pool =
      ((answer, cache), pool)) :
    ∃ between after, SharedHeap.perform (.request (.free i object)) shared = .ok .done between ∧
      SharedHeap.perform (.request (.alloc i bytes)) between = .ok (.object answer) after ∧
      (view.setCache i ref pool cache).Describes after := by
  rcases released : ((view.cache i ref).free size object).run view.pool with ⟨smaller, later⟩
  rw [Plan.run_bind, released] at run
  obtain ⟨between, frees, described, accounts'⟩ :=
    h.free_refines_found finds fits accounts own permitted released
  -- the smaller cache is found again
  have regular := h.regular_cache finds fits
  have freed := (CacheView.free_always regular (h.sound_cache finds) own).run view.pool
  rw [released] at freed
  have finds' : (view.setCache i ref later smaller).Finds i bytes ref :=
    finds.setCache h.sound h.regular freed.objectSize finds
  have found : (view.setCache i ref later smaller).cache i ref = smaller :=
    finds.cache_setCache h.sound h.regular
  rw [← found] at run
  obtain ⟨after, serves, described', _⟩ :=
    described.alloc_refines_found finds' fits accounts' run
  rw [SharedView.setCache_setCache] at described'
  exact ⟨between, after, frees, serves, described'⟩

/-- **When an address that was freed is served next.** -/
theorem SharedHeap.Reachable.alloc_after_free (fits : size.Fits maxObjectSize)
    (reachable : Reachable shared ledger) (unrefused : shared.heap.source.refusal = none)
    (opened : ledger.opened i = true) {holding : Holding count} (mem : holding ∈ ledger.holdings)
    (live : holding.LiveAt i) (sizes : servedSize bytes = holding.block.size) :
    ∃ storages stats listed object between after,
      (∀ j, (shared.allocators.get j).table.storages shared.heap.store = .ok (storages j)) ∧
      shared.Lists i bytes stats listed ∧
      SharedHeap.perform (.request (.free i holding.block.address)) shared =
        .ok .done between ∧
      SharedHeap.perform (.request (.alloc i bytes)) between = .ok (.object (.ok object)) after ∧
      (object = holding.block.address ↔
        shared.StaysInFront ledger storages stats holding.block.address ∨
          shared.StartsAnew ledger storages listed holding.block.address) ∧
      (shared.StaysInFront ledger storages stats holding.block.address →
        after.Lists i bytes stats listed ∧
          ∀ page, shared.HoldsPage ledger page → ∀ free,
            (Slab.mk page).FreeSlots shared.heap.memory free →
              (Slab.mk page).FreeSlots after.heap.memory free) := by
  obtain ⟨view, h, accounts⟩ := reachable.exists_view fits
  have user : holding.block ∈ (view.allocators i).table.users size := by
    rw [← accounts.users i]
    exact Multiset.mem_coe.2 (List.mem_map_of_mem
      (List.mem_filter.2 ⟨mem, decide_eq_true live⟩))
  obtain ⟨ref, finds, own⟩ := SharedView.exists_finds h.sound h.regular
    ((accounts.opened i).symm.trans opened) user sizes
  have sound := h.sound_cache finds
  have regular := h.regular_cache finds fits
  obtain ⟨front, free, back, located⟩ := regular.exists_located own
  have serving : view.pool.refusal = none := h.pool.refusal.symm.trans unrefused
  obtain ⟨object, cache, pool, run, same, kept⟩ := located.free_alloc regular sound serving
  obtain ⟨between, after, frees, serves, described⟩ :=
    h.exists_free_alloc fits accounts finds own (fun _ => ⟨holding, mem, live, rfl⟩) run
  rw [← accounts.staysInFront_iff h finds located own,
    ← accounts.startsAnew_iff h finds located own] at same
  refine ⟨fun j => (view.allocators j).table.order, _, _, object, between, after,
    fun j => (h.allocators j).table.storages_eq, h.lists finds, frees, serves, same,
    fun stays => ?_⟩
  obtain ⟨others, first⟩ := (accounts.staysInFront_iff h finds located own).1 stays
  obtain ⟨sizes, room, full⟩ := kept others first
  have lists := described.lists (finds.setCache h.sound h.regular sizes finds)
  rw [finds.cache_setCache h.sound h.regular, CacheView.stats_congr sizes room full, room] at lists
  exact ⟨lists, fun page held free slots =>
    accounts.freeSlots_setCache h finds described sizes (CacheView.slabs_congr room full) held
      slots⟩

/-- The second of two objects in a page is freed and served again. -/
theorem SharedHeap.Reachable.alloc_after_free_second :
    ∃ (shared between after : SharedHeap (MeteredPool PageSize.default) 1) (ledger : Ledger 1)
      (storages : Fin 1 → List UInt64) (stats : CacheStats) (listed : List Slab),
      Reachable shared ledger ∧ shared.Lists 0 100 stats listed ∧
      SharedHeap.perform (.request (.free 0 0x120c0)) shared = .ok .done between ∧
      SharedHeap.perform (.request (.alloc 0 100)) between =
        .ok (.object (.ok 0x120c0)) after ∧
      shared.StaysInFront ledger storages stats 0x120c0 ∧ after.Lists 0 100 stats listed := by
  have fits : PageSize.default.Fits maxObjectSize := ⟨by decide, by decide +kernel⟩
  let actions : List (Action 1) := [.request (.init 0), .addMemory 0x10010 0x4000,
    .request (.alloc 0 100), .request (.alloc 0 100)]
  have legal : ({} : Ledger 1).Legal (.fresh PageSize.default 1 {}) actions :=
    ⟨trivial, fun _ _ _ => ⟨nofun, fun _ _ _ => ⟨trivial, fun _ _ _ => ⟨trivial, fun _ _ _ =>
      trivial⟩⟩⟩⟩
  let replies : List Reply :=
    [.done, .region (.ok ()), .object (.ok 0x12050), .object (.ok 0x120c0)]
  let ledger := ({} : Ledger 1).noteAll actions replies
  obtain ⟨others, shared, reply, between, ends, reachable, frees, tested⟩ :=
    Reachable.step_of_test fits (.start {}) legal (.request (.free 0 0x120c0))
      (fun others shared _ between => others = replies ∧ shared.heap.source.refusal = none ∧
        (SharedHeap.perform (.request (.alloc 0 100))).run' between =
          some (.object (.ok 0x120c0))) (by decide +kernel)
  obtain ⟨rfl, unrefused, again⟩ := of_decide_eq_true tested
  have mem : (⟨0, ⟨0x120c0, 112⟩, false⟩ : Holding 1) ∈ ledger.holdings := by decide +kernel
  have other : (⟨0, ⟨0x12050, 112⟩, false⟩ : Holding 1) ∈ ledger.holdings := by decide +kernel
  have sizes : servedSize 100 = 112 := by decide +kernel
  obtain ⟨storages, stats, listed, object, between, after, _, lists, frees', serves, same, kept⟩ :=
    reachable.alloc_after_free fits unrefused (by decide +kernel) mem ⟨rfl, rfl⟩ sizes
  rw [frees'] at frees
  cases frees
  rw [run'_ok serves] at again
  obtain rfl : object = 0x120c0 := by simpa using again
  have stays := (same.1 rfl).resolve_right fun anew => by
    have live : (0x12050 : UInt64) ∈ ledger.live storages :=
      List.mem_append_left _ (List.mem_map_of_mem other)
    exact absurd (anew.1 _ live (by decide +kernel)) (by decide)
  exact ⟨shared, between, after, ledger, storages, stats, listed, reachable, lists, frees', serves,
    stays, (kept stays).1⟩

end SlabHeap
