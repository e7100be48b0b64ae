import SlabHeap.Proofs.FoundCaches

/-!
# Counters count what they should

What a reachable heap counts can be told from the ledger of its callers and from
the objects that caches are stored in.  The live objects of a cache are the users'
objects of its size, and in the bootstrap cache those that store the other caches
besides (`Ledger.objects`).  Its counters, its list of slabs with room, and the
headers and tables of its slabs are all functions of that multiset
(`Cache.AccountsFor`), and so is what the cache tells about itself
(`CacheStats.AccountsFor`).  The pages that the pool does not have are the pages of all
these objects and of the leaked ones (`PagePool.AccountsFor`).

`SharedHeap.Reachable.exists_accounts` puts it together.
-/

namespace SlabHeap

variable {size : PageSize} {count : Nat}

/-- The objects in a page. -/
def PageSize.within (size : PageSize) (page : UInt64) (objects : Multiset UInt64) :
    Multiset UInt64 := objects.filter (size.pageOf · = page)

theorem PageSize.mem_within {page object : UInt64} {objects : Multiset UInt64} :
    object ∈ size.within page objects ↔ object ∈ objects ∧ size.pageOf object = page :=
  Multiset.mem_filter

/-- The header and the table of a slab agree with the live objects in its page. -/
structure Slab.AccountsFor (size : PageSize) (objectSize : UInt64) (slab : Slab) (memory : Memory)
    (objects : Multiset UInt64) : Prop where
  sizeNoted : slab.objectSize memory = objectSize
  baseNoted : slab.objectBase memory =
    slab.base + UInt64.ofNat (firstSlot (size.slots objectSize))
  live : (slab.live memory).toNat = objects.card
  free : ∃ free, slab.FreeSlots memory free ∧ free.Nodup ∧ ∀ slot, slot ∈ free ↔
    slot.toNat < size.slots objectSize ∧ size.slotAddress objectSize slab.base slot ∉ objects

/-- A cache agrees with its live objects.  Its slabs are their pages, and those with
room are on its list. -/
structure Cache.AccountsFor (size : PageSize) (cache : Cache) (memory : Memory)
    (objects : Multiset UInt64) : Prop where
  nodup : objects.Nodup
  live : cache.live.toNat = objects.card
  pages : cache.pages.toNat = (objects.map size.pageOf).dedup.card
  space : ∃ slabs, cache.space.Holds memory slabs ∧ slabs.Nodup ∧ ∀ page, ⟨page⟩ ∈ slabs ↔
    page ∈ objects.map size.pageOf ∧
      (size.within page objects).card < size.slots cache.objectSize
  slabs : ∀ page ∈ objects.map size.pageOf,
    (Slab.mk page).AccountsFor size cache.objectSize memory (size.within page objects)

/-- What a cache tells about itself agrees with its live objects. -/
structure CacheStats.AccountsFor (size : PageSize) (told : CacheStats) (memory : Memory)
    (objects : Multiset UInt64) : Prop where
  live : told.live.toNat = objects.card
  pages : told.pages.toNat = (objects.map size.pageOf).dedup.card
  space : ∃ slabs, SpaceList.Holds ⟨told.front, told.partialSlabs⟩ memory slabs ∧ slabs.Nodup ∧
    ∀ page, ⟨page⟩ ∈ slabs ↔ page ∈ objects.map size.pageOf ∧
      (size.within page objects).card < size.slots told.objectSize

/-- A cache that agrees with its live objects tells so. -/
theorem Cache.AccountsFor.stats {cache : Cache} {memory : Memory} {objects : Multiset UInt64}
    (h : cache.AccountsFor size memory objects) :
    cache.stats.AccountsFor size memory objects :=
  ⟨h.live, h.pages, h.space⟩

/-- A pool agrees with the pages that it was given and with those in use. -/
structure PagePool.AccountsFor (pool : PagePool size) (memory : Memory)
    (added used : Multiset UInt64) : Prop where
  nodup : added.Nodup
  free : ∃ free, pool.FreePages memory free ∧ pool.free.toNat = free.length ∧ added = free + used
  total : pool.total.toNat = added.card
  used : ∃ pages, pool.used = .ok pages ∧ pages.toNat = used.card

/-! ## Caches -/

namespace CacheView

variable {view : CacheView} {slab : SlabView} {cache : Cache} {memory : Memory} {page : UInt64}

namespace Regular

variable (regular : view.Regular size)

include regular

/-- The objects in a page are those of its slab. -/
theorem within_objects (mem : slab ∈ view.slabs) : size.within slab.base (view.objects size) =
    slab.objects size view.objectSize := by
  have aligned := regular.aligned _ (mem_pages mem)
  have nodup : (size.within slab.base (view.objects size)).Nodup := regular.nodup_objects.filter _
  refine (Multiset.Nodup.ext nodup (Multiset.coe_nodup.2 (SlabView.nodup_objects regular.fits
    aligned))).2 fun object => ?_
  rw [PageSize.mem_within, Multiset.mem_coe]
  constructor
  · rintro ⟨own, inPage⟩
    obtain ⟨slab', held, slot, inRange, used, rfl⟩ := regular.mem_objects.1 own
    rw [regular.fits.pageOf_slotAddress (regular.aligned _ (mem_pages held)) inRange] at inPage
    rw [regular.eq_of_base held mem inPage] at used ⊢
    exact (SlabView.mem_objects regular.fits).2 ⟨slot, inRange, used, rfl⟩
  · intro own
    obtain ⟨slot, inRange, used, rfl⟩ := (SlabView.mem_objects regular.fits).1 own
    exact ⟨regular.mem_objects.2 ⟨slab, mem, slot, inRange, used, rfl⟩,
      regular.fits.pageOf_slotAddress aligned inRange⟩

/-- In each slab there are as many objects as slots that are not free. -/
theorem card_within (mem : slab ∈ view.slabs) :
    (size.within slab.base (view.objects size)).card + slab.free.length =
      size.slots view.objectSize := by
  rw [regular.within_objects mem, Multiset.coe_card, SlabView.length_objects]
  exact SlabView.length_liveSlots regular.fits (regular.slabs slab mem)

variable (sound : view.Sound size)

include sound

/-- No slab is held without an object in it. -/
theorem exists_object (mem : slab ∈ view.slabs) :
    ∃ object ∈ view.objects size, size.pageOf object = slab.base := by
  have fewer : slab.free.length < size.slots view.objectSize := by
    rcases List.mem_append.1 mem with listed | full
    · exact sound.some slab listed
    · obtain ⟨base, _, rfl⟩ := List.mem_map.1 full
      exact regular.fits.slots_pos
  have whole := regular.card_within mem
  have pos : 0 < (size.within slab.base (view.objects size)).card := by omega
  obtain ⟨object, own⟩ := Multiset.card_pos_iff_exists_mem.1 pos
  exact ⟨object, PageSize.mem_within.1 own⟩

theorem mem_map_pageOf : page ∈ (view.objects size).map size.pageOf ↔ page ∈ view.pages := by
  rw [Multiset.mem_map]
  constructor
  · rintro ⟨object, mem, rfl⟩
    exact regular.pageOf_mem mem
  · intro held
    obtain ⟨slab, mem, rfl⟩ := List.mem_map.1 (Multiset.mem_coe.1 held)
    exact regular.exists_object sound mem

/-- The pages of a cache are the pages of its objects. -/
theorem dedup_pages : ((view.objects size).map size.pageOf).dedup = view.pages := by
  refine (Multiset.Nodup.ext (Multiset.nodup_dedup _) regular.nodup).2 fun page => ?_
  rw [Multiset.mem_dedup, regular.mem_map_pageOf sound]

/-- The slabs with room are those with fewer objects than slots. -/
theorem mem_room_iff : ⟨page⟩ ∈ view.room.map SlabView.slab ↔
    page ∈ (view.objects size).map size.pageOf ∧
      (size.within page (view.objects size)).card < size.slots view.objectSize := by
  rw [regular.mem_map_pageOf sound]
  constructor
  · intro listed
    obtain ⟨slab, mem, same⟩ := List.mem_map.1 listed
    obtain rfl : slab.base = page := congrArg Slab.base same
    have held : slab ∈ view.slabs := List.mem_append_left _ mem
    have whole := regular.card_within held
    have room := List.length_pos_iff.2 (sound.free slab mem)
    exact ⟨mem_pages held, by omega⟩
  · rintro ⟨held, fewer⟩
    obtain ⟨slab, mem, rfl⟩ := List.mem_map.1 (Multiset.mem_coe.1 held)
    rcases List.mem_append.1 mem with listed | full
    · exact List.mem_map.2 ⟨slab, listed, rfl⟩
    · obtain ⟨base, _, rfl⟩ := List.mem_map.1 full
      have whole := regular.card_within mem
      dsimp only [List.length_nil] at whole fewer
      omega

end Regular

/-- What is known of a slab is known of the objects in its page. -/
theorem Describes.slab_accountsFor (h : view.Describes size cache memory)
    (regular : view.Regular size) (mem : slab ∈ view.slabs) :
    slab.slab.AccountsFor size cache.objectSize memory
      (size.within slab.base (view.objects size)) := by
  have described := h.slabs slab mem
  have good := regular.slabs slab mem
  have aligned := regular.aligned _ (mem_pages mem)
  have whole := regular.card_within mem
  have counted := described.liveCount
  rw [h.objectSize]
  refine ⟨described.sizeNoted, described.baseNoted, by omega, slab.free, described.freeChain,
    good.nodup, fun slot => ?_⟩
  rw [regular.within_objects mem, Multiset.mem_coe, SlabView.mem_objects regular.fits]
  constructor
  · intro unused
    refine ⟨good.inRange slot unused, ?_⟩
    rintro ⟨slot', inRange', used, same⟩
    obtain rfl := (regular.fits.slotAddress_inj aligned aligned inRange'
      (good.inRange slot unused) same).2
    exact used unused
  · rintro ⟨inRange, unserved⟩
    exact Decidable.byContradiction fun used => unserved ⟨slot, inRange, used, rfl⟩

/-- A cache that is described is accounted for by its objects. -/
theorem Describes.accountsFor (h : view.Describes size cache memory) (sound : view.Sound size)
    (regular : view.slabs ≠ [] → view.Regular size) :
    cache.AccountsFor size memory (view.objects size) := by
  by_cases bare : view.slabs = []
  · have empty : view.objects size = 0 := by
      rw [CacheView.objects, bare]
      rfl
    have pages : view.pages = 0 := by
      rw [CacheView.pages, bare]
      rfl
    have room : view.room = [] := (List.append_eq_nil_iff.1 bare).1
    have live := h.live
    have held := h.pages
    have space := h.space
    rw [empty] at live
    rw [pages] at held
    rw [room] at space
    rw [empty]
    exact ⟨Multiset.nodup_zero, live, held, ⟨[], space, List.nodup_nil, fun page =>
      ⟨fun mem => absurd mem List.not_mem_nil, fun mem => absurd mem.1 (Multiset.notMem_zero _)⟩⟩,
      fun page mem => absurd mem (Multiset.notMem_zero _)⟩
  · have regular := regular bare
    refine ⟨regular.nodup_objects, h.live, ?_, ⟨_, h.space, regular.nodup_room, fun page => ?_⟩,
      fun page mem => ?_⟩
    · rw [regular.dedup_pages sound]
      exact h.pages
    · rw [h.objectSize]
      exact regular.mem_room_iff sound
    · rw [regular.mem_map_pageOf sound] at mem
      obtain ⟨slab, held, rfl⟩ := List.mem_map.1 (Multiset.mem_coe.1 mem)
      exact h.slab_accountsFor regular held

end CacheView

/-! ## Tables -/

/-- The live objects of an allocator's cache: the users' objects of its size, and in the
bootstrap cache the objects that the other caches are stored in. -/
def Ledger.objects (ledger : Ledger count) (i : Fin count) (storages : List UInt64)
    (objectSize : UInt64) : Multiset UInt64 :=
  ((ledger.users i).filter (·.size = objectSize)).map Block.address +
    if objectSize = bootstrapClass.size then (storages : Multiset UInt64) else 0

namespace TableView.Sound

variable {view : TableView} {cache : CacheView} (sound : view.Sound size)
  (regular : view.Regular size)

include sound regular

/-- The blocks of one size are those of one cache. -/
theorem filter_blocks (mem : cache ∈ view.caches) :
    (view.blocks size).filter (·.size = cache.objectSize) = cache.blocks size := by
  have nodup := sound.nodup_blocks regular
  refine (Multiset.Nodup.ext (nodup.filter _) (Multiset.nodup_of_le (blocks_le mem) nodup)).2
    fun block => ?_
  rw [Multiset.mem_filter]
  constructor
  · rintro ⟨listed, sizes⟩
    obtain ⟨other, mem', own⟩ := CacheView.mem_sum.1 listed
    have same := (CacheView.mem_blocks.1 own).2
    rw [sound.eq_of_objectSize mem mem' (sizes.symm.trans same)]
    exact own
  · intro own
    exact ⟨CacheView.mem_sum.2 ⟨cache, mem, own⟩, (CacheView.mem_blocks.1 own).2⟩

/-- The objects of a cache are those of users and those that store caches. -/
theorem objects_eq (mem : cache ∈ view.caches) : cache.objects size =
    ((view.users size).filter (·.size = cache.objectSize)).map Block.address +
      if cache.objectSize = bootstrapClass.size then (view.addresses : Multiset UInt64) else 0 := by
  have own : (cache.blocks size).map Block.address = cache.objects size := by
    rw [CacheView.blocks, Multiset.map_map]
    exact Multiset.map_id _
  have storages : (view.storages.filter (·.size = cache.objectSize)).map Block.address =
      if cache.objectSize = bootstrapClass.size then (view.addresses : Multiset UInt64) else 0 := by
    split
    · rename_i same
      rw [Multiset.filter_eq_self.2 fun block stored => ?_, TableView.storages, Multiset.map_map]
      · exact Multiset.map_id _
      · obtain ⟨address, _, rfl⟩ := Multiset.mem_map.1 stored
        exact same.symm
    · rename_i differ
      rw [Multiset.filter_eq_nil.2 fun block stored => ?_, Multiset.map_zero]
      obtain ⟨address, _, rfl⟩ := Multiset.mem_map.1 stored
      exact fun same => differ same.symm
  rw [← own, ← sound.filter_blocks regular mem, sound.blocks_eq, Multiset.filter_add,
    Multiset.map_add, storages, add_comm]

end TableView.Sound

/-! ## Shared heaps -/

/-- A shared heap agrees with the ledger of its callers, if the caches of its allocators
are stored in the given objects. -/
structure SharedHeap.AccountsFor (shared : SharedHeap (MeteredPool size) count)
    (ledger : Ledger count) (storages : Fin count → List UInt64) : Prop where
  stored : ∀ i : Fin count,
    (shared.allocators.get i).table.storages shared.heap.store = .ok (storages i)
  listed : ∀ i : Fin count, (shared.allocators.get i).table.caches shared.heap.store =
    .ok (if (shared.allocators.get i).table.registered then
      (shared.allocators.get i).table.allCaches shared.heap.store (storages i)
      else ((shared.allocators.get i).table.allCaches shared.heap.store (storages i)).tail)
  classes : ∀ i : Fin count, (((shared.allocators.get i).table.allCaches shared.heap.store
    (storages i)).map Cache.objectSize).Nodup
  served : ∀ i : Fin count, ∀ block ∈ ledger.users i, block.size ∈
    ((shared.allocators.get i).table.allCaches shared.heap.store (storages i)).map Cache.objectSize
  caches : ∀ i : Fin count, ∀ cache ∈ (shared.allocators.get i).table.allCaches shared.heap.store
    (storages i), cache.AccountsFor size shared.heap.memory
      (ledger.objects i (storages i) cache.objectSize)
  stats : ∀ (i : Fin count) (bytes : UInt64) (told : CacheStats),
    (shared.allocators.get i).stats shared.heap.store bytes = .ok (some told) →
      told.objectSize = servedSize bytes ∧ told.AccountsFor size shared.heap.memory
        (ledger.objects i (storages i) told.objectSize)
  allStats : ∀ (i : Fin count) (caches : List Cache),
    (shared.allocators.get i).table.caches shared.heap.store = .ok caches →
      ∃ all, (shared.allocators.get i).allStats shared.heap.store = .ok all ∧
        List.Forall₂ (fun told cache => told.objectSize = cache.objectSize ∧
          told.AccountsFor size shared.heap.memory
            (ledger.objects i (storages i) told.objectSize)) all caches
  pool : shared.heap.source.pool.AccountsFor shared.heap.memory
    (ledger.regions.flatMap (Extent.pages size))
    (((ledger.holdings.map (·.block.address) : Multiset UInt64) +
      ∑ i, (storages i : Multiset UInt64)).map size.pageOf).dedup

section

variable {view : SharedView count} {σ : Type} {shared : SharedHeap σ count} {ledger : Ledger count}

/-- The pages that were taken are the pages of all blocks. -/
theorem SharedView.Houses.dedup_pages (h : view.Houses size shared) :
    ((view.caches.map (CacheView.blocks size)).sum.map (size.pageOf ·.address)).dedup =
      view.held := by
  refine (Multiset.Nodup.ext (Multiset.nodup_dedup _) h.nodup).2 fun page => ?_
  rw [Multiset.mem_dedup, Multiset.mem_map, SharedView.held, CacheView.mem_sum]
  constructor
  · rintro ⟨block, listed, rfl⟩
    obtain ⟨cache, mem, own⟩ := CacheView.mem_sum.1 listed
    exact ⟨cache, mem, (h.regular_of_mem mem (CacheView.slabs_ne_nil own)).pageOf_mem
      (CacheView.mem_blocks.1 own).1⟩
  · rintro ⟨cache, mem, held⟩
    obtain ⟨slab, mem', rfl⟩ := List.mem_map.1 (Multiset.mem_coe.1 held)
    have regular := h.regular_of_mem mem (List.ne_nil_of_mem mem')
    obtain ⟨object, own, same⟩ := regular.exists_object (h.sound_of_mem mem) mem'
    exact ⟨⟨object, cache.objectSize⟩,
      CacheView.mem_sum.2 ⟨cache, mem, CacheView.mem_blocks.2 ⟨own, rfl⟩⟩, same⟩

/-- All live objects are the callers' objects and the caches'. -/
theorem Ledger.Accounts.addresses_eq (accounts : ledger.Accounts size view)
    (h : view.Houses size shared) :
    (ledger.holdings.map (·.block.address) : Multiset UInt64) +
      ∑ i, ((view.allocators i).table.order : Multiset UInt64) =
        (view.caches.map (CacheView.blocks size)).sum.map Block.address := by
  have storages : (∑ i, (view.allocators i).table.storages).map Block.address =
      ∑ i, ((view.allocators i).table.order : Multiset UInt64) := by
    refine (map_sum (Multiset.mapAddMonoidHom Block.address) _ _).trans ?_
    refine Finset.sum_congr rfl fun i _ => ?_
    rw [Multiset.coe_mapAddMonoidHom, TableView.storages, Multiset.map_map,
      Multiset.coe_eq_coe.2 (view.allocators i).table.order_perm]
    exact Multiset.map_id _
  have holdings : (ledger.holdings.map (·.block.address) : Multiset UInt64) =
      (ledger.holdings.map Holding.block : Multiset Block).map Block.address := by
    rw [Multiset.map_coe, List.map_map]
    rfl
  rw [holdings, ← storages, ← Multiset.map_add, ← accounts.blocks_eq h]

/-- The pages that were taken are those of the callers' objects and of the caches'. -/
theorem Ledger.Accounts.dedup_pages (accounts : ledger.Accounts size view)
    (h : view.Houses size shared) :
    (((ledger.holdings.map (·.block.address) : Multiset UInt64) +
      ∑ i, ((view.allocators i).table.order : Multiset UInt64)).map size.pageOf).dedup =
        view.held := by
  rw [accounts.addresses_eq h, Multiset.map_map]
  exact h.dedup_pages

/-- The live objects of a cache are those in the ledger. -/
theorem Ledger.Accounts.objects_eq {i : Fin count} {cache : CacheView}
    (accounts : ledger.Accounts size view) (h : view.Houses size shared)
    (mem : cache ∈ (view.allocators i).table.caches) :
    ledger.objects i (view.allocators i).table.order cache.objectSize = cache.objects size := by
  rw [(h.sound i).table.objects_eq (h.regular i) mem, Ledger.objects, accounts.users i,
    Multiset.coe_eq_coe.2 (view.allocators i).table.order_perm]

end

variable {view : SharedView count} {shared : SharedHeap (MeteredPool size) count}
  {ledger : Ledger count}

section

variable {i : Fin count} {cache : Cache} (accounts : ledger.Accounts size view)
  (h : view.Describes shared)

include accounts h

theorem Ledger.Accounts.described_accountsFor {cacheView : CacheView}
    (mem : cacheView ∈ (view.allocators i).table.caches)
    (described : cacheView.Describes size cache shared.heap.memory) :
    cache.AccountsFor size shared.heap.memory
      (ledger.objects i (view.allocators i).table.order cache.objectSize) := by
  have sound := (h.sound i).table
  rw [described.objectSize, accounts.objects_eq h.houses mem]
  exact described.accountsFor (sound.caches cacheView mem)
    (sound.regular_of_mem (h.regular i) mem)

/-- A cache of an allocator agrees with the ledger. -/
theorem Ledger.Accounts.cache_accountsFor
    (mem : cache ∈ (shared.allocators.get i).table.allCaches shared.heap.store
      (view.allocators i).table.order) :
    cache.AccountsFor size shared.heap.memory
      (ledger.objects i (view.allocators i).table.order cache.objectSize) := by
  obtain ⟨cacheView, mem', described⟩ := (h.allocators i).table.exists_described mem
  exact accounts.described_accountsFor h mem' described

/-- What an allocator tells about the cache of a size agrees with the ledger. -/
theorem Ledger.Accounts.stats_accountsFor {bytes : UInt64} {told : CacheStats}
    (tells : (shared.allocators.get i).stats shared.heap.store bytes = .ok (some told)) :
    told.objectSize = servedSize bytes ∧ told.AccountsFor size shared.heap.memory
      (ledger.objects i (view.allocators i).table.order told.objectSize) := by
  obtain ⟨ref, finds⟩ := h.exists_finds_of_stats tells
  obtain ⟨cache, tells', described⟩ := h.stats_of_finds finds
  rw [tells, Except.ok.injEq, Option.some.injEq] at tells'
  subst tells'
  have mem := finds.mem_caches h.sound h.regular
  exact ⟨described.objectSize.trans (finds.objectSize h.sound h.regular),
    (accounts.described_accountsFor h mem described).stats⟩

/-- What an allocator tells about all caches agrees with the ledger. -/
theorem Ledger.Accounts.allStats_accountsFor {caches : List Cache}
    (listed : (shared.allocators.get i).table.caches shared.heap.store = .ok caches) :
    ∃ all, (shared.allocators.get i).allStats shared.heap.store = .ok all ∧
      List.Forall₂ (fun told cache => told.objectSize = cache.objectSize ∧
        told.AccountsFor size shared.heap.memory
          (ledger.objects i (view.allocators i).table.order told.objectSize)) all caches := by
  refine ⟨caches.map Cache.stats, ?_, ?_⟩
  · rw [Allocator.allStats, listed]
    rfl
  · rw [List.forall₂_map_left_iff, List.forall₂_same]
    intro cache mem
    have told := (h.allocators i).table.caches_eq
    rw [listed, Except.ok.injEq] at told
    have own : cache ∈ (shared.allocators.get i).table.allCaches shared.heap.store
        (view.allocators i).table.order := by
      rw [told] at mem
      split at mem
      · exact mem
      · exact List.mem_of_mem_tail mem
    exact ⟨rfl, (accounts.cache_accountsFor h own).stats⟩

end

/-- The pool agrees with the ledger. -/
theorem Ledger.Accounts.pool_accountsFor (accounts : ledger.Accounts size view)
    (h : view.Describes shared) (wide : 8 ≤ size.length) :
    shared.heap.source.pool.AccountsFor shared.heap.memory
      (ledger.regions.flatMap (Extent.pages size)) view.held := by
  have nodup := h.pool.nodup
  have total := h.pool.total
  have split := h.pool.split
  rw [accounts.regions] at nodup total split
  exact ⟨nodup, ⟨_, h.pool.stack.chain wide, h.pool.stack.count, split⟩, total,
    h.pool.exists_used⟩

/-- **Counters count what they should.**  In every reachable heap the counters of all
caches and of the pool, the lists of slabs with room, and the headers and tables of
the slabs are what the ledger of the callers says, and so are the statistics that
the allocators give. -/
theorem SharedHeap.Reachable.exists_accounts (fits : size.Fits maxObjectSize)
    (reachable : SharedHeap.Reachable shared ledger) :
    ∃ storages, shared.AccountsFor ledger storages := by
  obtain ⟨view, h, accounts⟩ := reachable.exists_view fits
  have tables := fun i => (h.allocators i).table
  have sizes := fun i => (tables i).sizes_perm
  refine ⟨fun i => (view.allocators i).table.order, fun i => (tables i).storages_eq,
    fun i => (tables i).caches_eq, fun i => ?_, fun i block held => ?_, fun i cache mem => ?_,
    fun i bytes told => accounts.stats_accountsFor h,
    fun i caches => accounts.allStats_accountsFor h, ?_⟩
  · exact (sizes i).nodup_iff.2 (h.sound i).table.classes
  · rw [accounts.users i] at held
    obtain ⟨cache, mem, same, _⟩ := (h.sound i).table.exists_cache_of_users (h.regular i) held
    rw [← same]
    exact (sizes i).mem_iff.2 (List.mem_map_of_mem mem)
  · exact accounts.cache_accountsFor h mem
  · rw [accounts.dedup_pages h.houses]
    exact accounts.pool_accountsFor h fits.wide

/-- An object that a teardown leaked, and one that was served after it. -/
theorem SharedHeap.Reachable.exists_accounts_after_leak :
    ∃ (shared : SharedHeap (MeteredPool PageSize.default) 1) (ledger : Ledger 1),
      Reachable shared ledger ∧
        ledger.holdings = [⟨0, ⟨0x13050, 112⟩, false⟩, ⟨0, ⟨0x12050, 112⟩, true⟩] ∧
        ∃ storages, shared.AccountsFor ledger storages := by
  have fits : PageSize.default.Fits maxObjectSize := ⟨by decide, by decide +kernel⟩
  let actions : List (Action 1) := [.request (.init 0), .addMemory 0x10010 0x4000,
    .request (.alloc 0 100), .request (.teardown 0), .request (.init 0), .request (.alloc 0 100)]
  have legal : ({} : Ledger 1).Legal (.fresh PageSize.default 1 {}) actions :=
    ⟨trivial, fun _ _ _ => ⟨nofun, fun _ _ _ => ⟨trivial, fun _ _ _ => ⟨trivial, fun _ _ _ =>
      ⟨trivial, fun _ _ _ => ⟨trivial, fun _ _ _ => trivial⟩⟩⟩⟩⟩⟩
  obtain ⟨replies, shared, ends, reachable⟩ := Reachable.run fits (.start {}) legal
  have answers : (actions.mapM SharedHeap.perform).run' (.fresh PageSize.default 1 {}) =
      some [.done, .region (.ok ()), .object (.ok 0x12050), .done, .done,
        .object (.ok 0x13050)] := by
    decide +kernel
  rw [run'_ok ends] at answers
  obtain rfl := Option.some.inj answers
  exact ⟨shared, _, reachable, by decide +kernel, reachable.exists_accounts fits⟩

end SlabHeap
