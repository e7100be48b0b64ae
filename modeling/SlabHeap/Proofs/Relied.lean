import SlabHeap.Proofs.Reachable

/-!
# What a heap relies on

Of all the bytes in its pages a heap relies on few: the link in each free page, and in
each slab the fields of the header and the table bytes of the free slots (`Slab.relied`).
What an abstract heap says of memory depends on these bytes only
(`SharedView.Describes.congr_relied`).

It also decides them.  Two heaps that one abstract heap describes have the same
allocators, the same page source, the same caches, and the same values of these bytes
(`SharedView.Describes.eqOn_relied`).
-/

namespace SlabHeap

variable {size : PageSize} {memory memory' : Memory}

/-- The link of a slab is relied on if a slot is free. -/
theorem Slab.link_subset_relied (slab : Slab) {free : List UInt64} (some : free ≠ []) :
    Memory.run slab.base 8 ⊆ slab.relied free := by
  have start : slab.fieldAddress .next = slab.base := UInt64.add_zero slab.base
  intro address inside
  rw [← start] at inside
  exact .inl ⟨.next, fun _ => some, inside⟩

/-! ## Caches -/

/-- What a cache tells about itself decides it. -/
theorem Cache.stats_inj {cache other : Cache} (same : cache.stats = other.stats) :
    cache = other := by
  cases cache with
  | mk objectSize space pages live =>
    cases other with
    | mk objectSize' space' pages' live' =>
      simp only [Cache.stats, CacheStats.mk.injEq] at same
      cases space
      cases space'
      simp_all

namespace CacheView

variable {view : CacheView} {cache cache' : Cache} {slab : SlabView}

/-- The bytes that a cache relies on. -/
def relied (view : CacheView) : Set UInt64 :=
  {address | ∃ slab ∈ view.slabs, address ∈ slab.slab.relied slab.free}

theorem relied_subset (mem : slab ∈ view.slabs) : slab.slab.relied slab.free ⊆ view.relied :=
  fun _ inside => ⟨slab, mem, inside⟩

namespace Describes

variable (h : view.Describes size cache memory)

include h

/-- What is known of a cache depends on what it relies on. -/
theorem congr_relied (some : ∀ slab ∈ view.room, slab.free ≠ [])
    (same : Set.EqOn memory'.byte memory.byte view.relied) :
    view.Describes size cache memory' := by
  refine ⟨⟨h.objectSize, h.space.congr fun slab mem => ?_, h.pages, fun slab mem => ?_⟩, h.live⟩
  · obtain ⟨slab, listed, rfl⟩ := List.mem_map.1 mem
    refine Slab.next_congr (same.mono ((Slab.link_subset_relied _ (some slab listed)).trans ?_))
    exact relied_subset (List.mem_append_left _ listed)
  · exact (h.slabs slab mem).congr_relied (same.mono (relied_subset mem))

variable (h' : view.Describes size cache' memory')

include h'

/-- What is known of a cache decides the cache. -/
theorem cache_eq : cache' = cache := Cache.stats_inj (h'.stats_eq.trans h.stats_eq.symm)

/-- What is known of a cache decides what it relies on. -/
theorem eqOn_relied : Set.EqOn memory'.byte memory.byte view.relied := by
  rintro address ⟨slab, mem, inside⟩
  refine (h.slabs slab mem).eqOn_relied (h'.slabs slab mem) (fun some => ?_) inside
  cases List.mem_append.1 mem with
  | inl listed => exact h.space.1.next_eq h'.space.1 _ (List.mem_map_of_mem listed)
  | inr full =>
    obtain ⟨base, _, rfl⟩ := List.mem_map.1 full
    exact absurd rfl some

end Describes

end CacheView

/-! ## Tables -/

namespace TableView.Describes

variable {view : TableView} {table table' : CacheTable} {store store' : CacheStore}
  {address : UInt64} (h : view.Describes size table store memory)

include h

/-- What is known of a table depends on what its caches rely on and on their storages. -/
theorem congr_relied (sound : view.Sound size)
    (same : ∀ cache ∈ view.caches, Set.EqOn memory'.byte memory.byte cache.relied)
    (stores : ∀ address ∈ view.addresses, store'.read address = store.read address) :
    view.Describes size table store' memory' := by
  refine ⟨h.registered, ?_, fun stored mem => ?_, fun b => ?_⟩
  · exact h.bootstrap.congr_relied (sound.caches _ List.mem_cons_self).free
      (same _ List.mem_cons_self)
  · have member : stored.view ∈ view.caches := .tail _ (List.mem_map_of_mem mem)
    rw [stores _ (List.mem_map_of_mem mem)]
    exact (h.stored stored mem).congr_relied (sound.caches _ member).free (same _ member)
  · refine (h.buckets b).congr fun address mem => ?_
    obtain ⟨stored, inBucket, rfl⟩ := List.mem_map.1 mem
    rw [CacheStore.next, CacheStore.next,
      stores _ (List.mem_map_of_mem (List.mem_of_mem_filter inBucket))]

variable (h' : view.Describes size table' store' memory')

include h'

/-- What is known of a table decides the table. -/
theorem table_eq : table' = table := by
  have buckets : table'.buckets = table.buckets := by
    refine Vector.ext fun i inRange => ?_
    exact (h'.buckets ⟨i, inRange⟩).head?_eq.trans (h.buckets ⟨i, inRange⟩).head?_eq.symm
  have bootstrap := h.bootstrap.cache_eq h'.bootstrap
  have registered := h'.registered.trans h.registered.symm
  cases table
  cases table'
  simp_all

/-- What is known of a table decides the caches that are stored. -/
theorem read_eq (mem : address ∈ view.addresses) : store'.read address = store.read address := by
  obtain ⟨stored, held, rfl⟩ := List.mem_map.1 mem
  have cache := (h.stored stored held).cache_eq (h'.stored stored held)
  have inBucket : stored ∈ view.bucket (bucketOf stored.view.objectSize) :=
    List.mem_filter.2 ⟨held, decide_eq_true rfl⟩
  have next : (store'.read stored.address).next = (store.read stored.address).next :=
    (h.buckets _).next_eq (h'.buckets _) _ (List.mem_map_of_mem inBucket)
  cases read : store.read stored.address
  cases read' : store'.read stored.address
  simp_all

end TableView.Describes

/-! ## Pools -/

namespace PoolView

variable {view : PoolView} {held held' : Multiset UInt64} {metered metered' : MeteredPool size}

/-- The bytes that a pool relies on: the links in its free pages. -/
def links (view : PoolView) : Set UInt64 :=
  {address | ∃ page ∈ view.free, address ∈ Memory.run page 8}

namespace Describes

variable (h : view.Describes held metered memory)

include h

/-- What is known of a pool depends on its links. -/
theorem congr_links (same : Set.EqOn memory'.byte memory.byte view.links) :
    view.Describes held metered memory' := by
  have stack : metered.pool.Stacks memory' view.free := by
    refine h.stack.congr_links fun _ page mem => same.mono ?_
    exact fun address inside => ⟨page, mem, inside⟩
  exact { h with stack }

/-- What is known of the pages of a pool decides the pool. -/
theorem pool_eq {view' : PoolView} (h' : view'.Describes held' metered' memory')
    (free : view'.free = view.free) (added : view'.added = view.added)
    (wide : 8 ≤ size.length) : metered'.pool = metered.pool := by
  have stack := h'.stack
  have total := h'.total
  rw [free] at stack
  rw [added] at total
  have top := (stack.chain wide).head?_eq.trans (h.stack.chain wide).head?_eq.symm
  have free := UInt64.toNat_inj.1 (stack.count.trans h.stack.count.symm)
  have total := UInt64.toNat_inj.1 (total.trans h.total.symm)
  cases pool : metered.pool
  cases pool' : metered'.pool
  simp_all

variable (h' : view.Describes held' metered' memory') (wide : 8 ≤ size.length)

include h' wide

/-- What is known of a pool decides it. -/
theorem metered_eq : metered' = metered := by
  have pool := h.pool_eq h' rfl rfl wide
  have requests := h'.requests.trans h.requests.symm
  have released := h'.released.trans h.released.symm
  have refusal := h'.refusal.trans h.refusal.symm
  cases metered
  cases metered'
  simp_all

/-- What is known of a pool decides its links. -/
theorem eqOn_links : Set.EqOn memory'.byte memory.byte view.links := by
  rintro address ⟨page, mem, inside⟩
  have same := (h.stack.chain wide).next_eq (h'.stack.chain wide) page mem
  exact Memory.eqOn_of_word (Memory.linkOfWord_inj same) inside

end Describes

end PoolView

/-! ## Shared heaps -/

namespace SharedView

variable {count : Nat} {view : SharedView count}
  {shared shared' : SharedHeap (MeteredPool size) count} {i : Fin count} {address : UInt64}

/-- The bytes that the pool and the allocators rely on.  Nothing is relied on in pages that
were given up. -/
def relied (view : SharedView count) : Set UInt64 :=
  view.pool.links ∪ {address | ∃ i, ∃ cache ∈ (view.allocators i).table.caches,
    address ∈ cache.relied}

section

variable {σ σ' : Type} {shared : SharedHeap σ count} {shared' : SharedHeap σ' count}
  (h : view.Houses size shared) (h' : view.Houses size shared')

include h h'

/-- What is known of allocators decides them. -/
theorem Houses.allocators_eq : shared'.allocators = shared.allocators := by
  refine Vector.ext fun i inRange => ?_
  have table := (h.allocators ⟨i, inRange⟩).table.table_eq (h'.allocators ⟨i, inRange⟩).table
  have opened := (h'.allocators ⟨i, inRange⟩).initialized.trans
    (h.allocators ⟨i, inRange⟩).initialized.symm
  have same : shared'.allocators.get ⟨i, inRange⟩ = shared.allocators.get ⟨i, inRange⟩ := by
    cases read : shared.allocators.get ⟨i, inRange⟩
    cases read' : shared'.allocators.get ⟨i, inRange⟩
    simp_all
  exact same

/-- What is known of allocators decides what their caches rely on. -/
theorem Houses.eqOn_relied {cache : CacheView} (mem : cache ∈ (view.allocators i).table.caches) :
    Set.EqOn shared'.heap.memory.byte shared.heap.memory.byte cache.relied := by
  cases mem with
  | head =>
    have known := (h.allocators i).table.bootstrap
    exact known.eqOn_relied (h'.allocators i).table.bootstrap
  | tail _ later =>
    obtain ⟨stored, held, rfl⟩ := List.mem_map.1 later
    have known := (h.allocators i).table.stored stored held
    exact known.eqOn_relied ((h'.allocators i).table.stored stored held)

end

namespace Describes

variable (h : view.Describes shared)

include h

/-- What is known of a heap depends on what it relies on. -/
theorem congr_relied (allocators : shared'.allocators = shared.allocators)
    (source : shared'.heap.source = shared.heap.source)
    (stores : ∀ i, ∀ address ∈ (view.allocators i).table.addresses,
      shared'.heap.store.read address = shared.heap.store.read address)
    (same : Set.EqOn shared'.heap.memory.byte shared.heap.memory.byte view.relied) :
    view.Describes shared' := by
  refine ⟨?_, fun i => ?_, h.sound, h.lost, h.rounded⟩
  · rw [source]
    exact h.pool.congr_links (same.mono Set.subset_union_left)
  · rw [allocators]
    refine ⟨(h.allocators i).table.congr_relied (h.sound i).table (fun cache mem => ?_) (stores i),
      (h.allocators i).initialized⟩
    exact same.mono fun _ inside => .inr ⟨i, cache, mem, inside⟩

variable (h' : view.Describes shared')

include h'

theorem read_eq (mem : address ∈ (view.allocators i).table.addresses) :
    shared'.heap.store.read address = shared.heap.store.read address :=
  (h.allocators i).table.read_eq (h'.allocators i).table mem

/-- What is known of a heap decides what it relies on. -/
theorem eqOn_relied (wide : 8 ≤ size.length) :
    Set.EqOn shared'.heap.memory.byte shared.heap.memory.byte view.relied := by
  rintro address (link | ⟨i, cache, mem, inside⟩)
  · exact h.pool.eqOn_links h'.pool wide link
  · exact h.houses.eqOn_relied h'.houses mem inside

end Describes

end SharedView

end SlabHeap
