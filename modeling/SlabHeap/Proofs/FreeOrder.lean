import SlabHeap.Proofs.FoundCaches
import SlabHeap.Proofs.Noninterference

/-!
# The order of frees

Freeing the same objects in two orders leaves two heaps that differ: slabs come to the front of
their list and slots to the top of their stack as their objects are freed.  Apart from such orders
they are the same (`SharedHeap.Reorders`).  The counters agree, each cache has the same slabs on
its list, each slab has the same free slots, and the same pages went back to the pool.

There is no need to swap two frees for that.  What a cache holds is a function of its live objects,
and the ledger knows these without an order (`Ledger.Accounts.objects_eq`).  So two heaps whose
callers hold the same, and whose caches are stored in the same objects, are the same up to order
(`SharedView.Describes.reorders`), and it remains that frees create and drop no cache
(`SharedView.Returns`).
-/

namespace SlabHeap

variable {size : PageSize} {count : Nat}

/-! ## The same up to order -/

/-- Two caches have the same counters, and the same slabs on their lists in any order. -/
structure Cache.Reorders (cache : Cache) (memory : Memory) (cache' : Cache) (memory' : Memory) :
    Prop where
  objectSize : cache'.objectSize = cache.objectSize
  pages : cache'.pages = cache.pages
  live : cache'.live = cache.live
  partialSlabs : cache'.stats.partialSlabs = cache.stats.partialSlabs
  space : ∃ slabs slabs', cache.space.Holds memory slabs ∧ cache'.space.Holds memory' slabs' ∧
    slabs.Perm slabs'

/-- Two heaps have the same caches on the same pages with the same free slots, and the same free
pages, each in any order. -/
structure SharedHeap.Reorders (shared shared' : SharedHeap (MeteredPool size) count)
    (ledger ledger' : Ledger count) : Prop where
  storages : ∀ i, (shared'.allocators.get i).table.storages shared'.heap.store =
    (shared.allocators.get i).table.storages shared.heap.store
  caches : ∀ i storages, (shared.allocators.get i).table.storages shared.heap.store = .ok storages →
    ∀ ref ∈ CacheRef.bootstrap :: storages.map CacheRef.stored,
      ((shared.allocators.get i).table.cache shared.heap.store ref).Reorders shared.heap.memory
        ((shared'.allocators.get i).table.cache shared'.heap.store ref) shared'.heap.memory
  held : ∀ page, shared'.HoldsPage ledger' page ↔ shared.HoldsPage ledger page
  slots : ∀ page, shared.HoldsPage ledger page → ∃ free free',
    (Slab.mk page).FreeSlots shared.heap.memory free ∧
      (Slab.mk page).FreeSlots shared'.heap.memory free' ∧ free.Perm free'
  free : shared'.heap.source.pool.free = shared.heap.source.pool.free
  total : shared'.heap.source.pool.total = shared.heap.source.pool.total
  pages : ∃ pages pages', shared.heap.source.pool.FreePages shared.heap.memory pages ∧
    shared'.heap.source.pool.FreePages shared'.heap.memory pages' ∧ pages.Perm pages'

/-! ## What accounts for the same objects -/

section Accounting

variable {memory memory' : Memory} {objects added used : Multiset UInt64}

theorem Slab.AccountsFor.free_perm {objectSize : UInt64} {slab : Slab}
    (h : slab.AccountsFor size objectSize memory objects)
    (h' : slab.AccountsFor size objectSize memory' objects) :
    ∃ free free', slab.FreeSlots memory free ∧ slab.FreeSlots memory' free' ∧ free.Perm free' := by
  obtain ⟨free, chain, nodup, mem⟩ := h.free
  obtain ⟨free', chain', nodup', mem'⟩ := h'.free
  exact ⟨free, free', chain, chain', (List.perm_ext_iff_of_nodup nodup nodup').2 fun slot =>
    (mem slot).trans (mem' slot).symm⟩

theorem Cache.AccountsFor.reorders {cache cache' : Cache}
    (h : cache.AccountsFor size memory objects) (h' : cache'.AccountsFor size memory' objects)
    (sizes : cache'.objectSize = cache.objectSize) : cache.Reorders memory cache' memory' := by
  obtain ⟨slabs, space, nodup, mem⟩ := h.space
  obtain ⟨slabs', space', nodup', mem'⟩ := h'.space
  have perm : slabs.Perm slabs' := by
    refine (List.perm_ext_iff_of_nodup nodup nodup').2 fun slab => ?_
    rw [sizes] at mem'
    exact (mem slab.base).trans (mem' slab.base).symm
  refine ⟨sizes, UInt64.toNat_inj.1 (h'.pages.trans h.pages.symm),
    UInt64.toNat_inj.1 (h'.live.trans h.live.symm), UInt64.toNat_inj.1 ?_, slabs, slabs', space,
    space', perm⟩
  exact (space'.2.trans perm.length_eq.symm).trans space.2.symm

theorem PagePool.AccountsFor.free_perm {pool pool' : PagePool size}
    (h : pool.AccountsFor memory added used) (h' : pool'.AccountsFor memory' added used) :
    pool'.free = pool.free ∧ pool'.total = pool.total ∧ ∃ pages pages',
      pool.FreePages memory pages ∧ pool'.FreePages memory' pages' ∧ pages.Perm pages' := by
  obtain ⟨pages, stack, counted, split⟩ := h.free
  obtain ⟨pages', stack', counted', split'⟩ := h'.free
  have perm : pages.Perm pages' :=
    Multiset.coe_eq_coe.1 (add_right_cancel (split.symm.trans split'))
  have same := counted'.trans (perm.length_eq.symm.trans counted.symm)
  exact ⟨UInt64.toNat_inj.1 same, UInt64.toNat_inj.1 (h'.total.trans h.total.symm), pages, pages',
    stack, stack', perm⟩

end Accounting

/-! ## Ledgers and tables up to order -/

/-- Two ledgers list the same objects and regions, the objects in any order. -/
structure Ledger.Alike (ledger ledger' : Ledger count) : Prop where
  users : ∀ i, ledger'.users i = ledger.users i
  leaked : ledger'.leaked = ledger.leaked
  regions : ledger'.regions = ledger.regions

theorem Ledger.Alike.addresses {ledger ledger' : Ledger count} (alike : ledger.Alike ledger') :
    (ledger'.holdings.map (·.block.address) : Multiset UInt64) =
      ledger.holdings.map (·.block.address) := by
  have blocks (ledger : Ledger count) : (ledger.holdings.map (·.block.address) : Multiset UInt64) =
      (∑ i, ledger.users i + ledger.leaked).map Block.address := by
    refine Eq.trans ?_ (congrArg (Multiset.map Block.address) (Holding.blocks_eq ledger.holdings))
    rw [Multiset.map_coe, List.map_map]
    rfl
  rw [blocks, blocks, Finset.sum_congr rfl fun i _ => alike.users i, alike.leaked]

/-- Two tables have caches of the same classes, stored in the same objects. -/
structure TableView.Matches (view view' : TableView) : Prop where
  order : view'.order = view.order
  sizes : ∀ ref, (view'.cache ref).objectSize = (view.cache ref).objectSize
  find : ∀ cls, view'.find cls = view.find cls

namespace TableView

variable {view view' view'' : TableView} {ref : CacheRef} {cache : CacheView}

theorem Matches.refl (view : TableView) : view.Matches view :=
  ⟨rfl, fun _ => rfl, fun _ => rfl⟩

theorem Matches.symm (first : view.Matches view') : view'.Matches view :=
  ⟨first.order.symm, fun ref => (first.sizes ref).symm, fun cls => (first.find cls).symm⟩

theorem Matches.trans (first : view.Matches view') (second : view'.Matches view'') :
    view.Matches view'' :=
  ⟨second.order.trans first.order, fun ref => (second.sizes ref).trans (first.sizes ref),
    fun cls => (second.find cls).trans (first.find cls)⟩

theorem Matches.setCache (nodup : view.addresses.Nodup) (has : view.Has ref)
    (sizes : cache.objectSize = (view.cache ref).objectSize) :
    view.Matches (view.setCache ref cache) :=
  ⟨order_setCache nodup has sizes, fun _ => objectSize_setCache nodup has sizes,
    fun _ => find_setCache nodup has sizes⟩

theorem Matches.has_iff (same : view.Matches view') : view'.Has ref ↔ view.Has ref := by
  rw [has_iff_mem_order, has_iff_mem_order, same.order]

end TableView

/-! ## What callers hold decides the rest -/

section Determined

variable {view view' : SharedView count} {shared shared' : SharedHeap (MeteredPool size) count}
  {ledger ledger' : Ledger count} {i : Fin count} {ref : CacheRef}
  (accounts : ledger.Accounts size view) (accounts' : ledger'.Accounts size view')
  (alike : ledger.Alike ledger')
  (same : ∀ i, (view.allocators i).table.Matches (view'.allocators i).table)
  (h : view.Describes shared) (h' : view'.Describes shared')

/-- The cache in memory accounts for the objects of the cache in the view. -/
theorem SharedView.Describes.cache_accountsFor (h : view.Describes shared)
    (has : (view.allocators i).table.Has ref) :
    ((shared.allocators.get i).table.cache shared.heap.store ref).AccountsFor size
      shared.heap.memory ((view.cache i ref).objects size) := by
  have sound := (h.sound i).table
  have mem := TableView.mem_caches_of_has (sound.nodup_addresses (h.regular i)) has
  exact ((h.allocators i).table.cacheOf sound (h.regular i) has).accountsFor (sound.caches _ mem)
    (sound.regular_of_mem (h.regular i) mem)

include accounts accounts' alike same h h'

/-- The same live objects are in a cache. -/
theorem SharedView.objects_eq_of_alike (has : (view.allocators i).table.Has ref) :
    (view'.cache i ref).objects size = (view.cache i ref).objects size := by
  have mem := TableView.mem_caches_of_has ((h.sound i).table.nodup_addresses (h.regular i)) has
  have mem' := TableView.mem_caches_of_has ((h'.sound i).table.nodup_addresses (h'.regular i))
    ((same i).has_iff.2 has)
  rw [SharedView.cache, SharedView.cache, ← accounts.objects_eq h.houses mem,
    ← accounts'.objects_eq h'.houses mem', Ledger.objects, Ledger.objects, alike.users,
    (same i).order, (same i).sizes]

/-- The same pages were taken. -/
theorem SharedView.held_eq_of_alike : view'.held = view.held := by
  rw [← accounts.dedup_pages h.houses, ← accounts'.dedup_pages h'.houses, alike.addresses,
    Finset.sum_congr rfl fun i _ => congrArg Multiset.ofList (same i).order]

/-- **What callers hold decides the rest.** -/
theorem SharedView.Describes.reorders (wide : 8 ≤ size.length) :
    shared.Reorders shared' ledger ledger' := by
  have storages (i : Fin count) : (shared'.allocators.get i).table.storages shared'.heap.store =
      (shared.allocators.get i).table.storages shared.heap.store := by
    rw [(h.allocators i).table.storages_eq, (h'.allocators i).table.storages_eq, (same i).order]
  have both {i : Fin count} {ref : CacheRef} (has : (view.allocators i).table.Has ref) :
      ((shared'.allocators.get i).table.cache shared'.heap.store ref).AccountsFor size
          shared'.heap.memory ((view.cache i ref).objects size) ∧
        ((shared'.allocators.get i).table.cache shared'.heap.store ref).objectSize =
          ((shared.allocators.get i).table.cache shared.heap.store ref).objectSize := by
    have has' := (same i).has_iff.2 has
    have accounted := h'.cache_accountsFor has'
    rw [SharedView.objects_eq_of_alike accounts accounts' alike same h h' has] at accounted
    refine ⟨accounted, ?_⟩
    rw [((h.allocators i).table.cacheOf (h.sound i).table (h.regular i) has).objectSize,
      ((h'.allocators i).table.cacheOf (h'.sound i).table (h'.regular i) has').objectSize,
      (same i).sizes]
  have pool := accounts'.pool_accountsFor h' wide
  rw [alike.regions, SharedView.held_eq_of_alike accounts accounts' alike same h h'] at pool
  obtain ⟨free, total, pages⟩ := (accounts.pool_accountsFor h wide).free_perm pool
  refine ⟨storages, fun i listed told ref mem => ?_, fun page => ?_, fun page held => ?_, free,
    total, pages⟩
  · rw [(h.allocators i).table.storages_eq] at told
    cases told
    have has := TableView.has_iff_mem_order.2 mem
    exact (h.cache_accountsFor has).reorders (both has).1 (both has).2
  · simp only [SharedHeap.HoldsPage, alike.users, storages]
  · obtain ⟨i, cache, mem, own⟩ := (accounts.holdsPage_iff h).1 held
    obtain ⟨ref, has, rfl⟩ :=
      TableView.exists_has_of_mem ((h.sound i).table.nodup_addresses (h.regular i)) mem
    have some : ((view.allocators i).table.cache ref).slabs ≠ [] := by
      intro none
      rw [CacheView.pages, none] at own
      exact absurd own (Multiset.notMem_zero _)
    have inUse := (((h.sound i).table.regular_of_mem (h.regular i) mem some).mem_map_pageOf
      ((h.sound i).table.caches _ mem)).2 own
    have slab := (both has).1.slabs page inUse
    rw [(both has).2] at slab
    exact ((h.cache_accountsFor has).slabs page inUse).free_perm slab

end Determined

/-! ## Frees -/

/-- Free some objects of an allocator one after another. -/
def Action.frees (i : Fin count) (freed : List UInt64) : List (Action count) :=
  freed.map fun object => .request (.free i object)

/-- The ledger after some objects were freed. -/
def Ledger.freeAll (ledger : Ledger count) (i : Fin count) (freed : List UInt64) : Ledger count :=
  ledger.noteAll (Action.frees i freed) (freed.map fun _ => .done)

namespace Ledger

variable {ledger ledger' ledger'' : Ledger count} {i : Fin count} {object : UInt64}
  {freed freed' later : List UInt64}

/-- A ledger without some objects of an allocator. -/
structure Lacks (ledger : Ledger count) (i : Fin count) (freed : List UInt64)
    (ledger' : Ledger count) : Prop where
  opened : ledger'.opened = ledger.opened
  users : ledger'.users i = (ledger.users i).filter (·.address ∉ freed)
  others : ∀ j ≠ i, ledger'.users j = ledger.users j
  leaked : ledger'.leaked = ledger.leaked
  regions : ledger'.regions = ledger.regions

theorem Lacks.refl (ledger : Ledger count) (i : Fin count) : ledger.Lacks i [] ledger :=
  ⟨rfl, by simp, fun _ _ => rfl, rfl, rfl⟩

theorem Lacks.trans (first : ledger.Lacks i freed ledger')
    (second : ledger'.Lacks i later ledger'') : ledger.Lacks i (freed ++ later) ledger'' := by
  refine ⟨second.opened.trans first.opened, ?_,
    fun j differ => (second.others j differ).trans (first.others j differ),
    second.leaked.trans first.leaked, second.regions.trans first.regions⟩
  rw [second.users, first.users, Multiset.filter_filter]
  refine Multiset.filter_congr fun block _ => ?_
  rw [List.mem_append, not_or, and_comm]

/-- The order does not matter. -/
theorem Lacks.alike (first : ledger.Lacks i freed ledger')
    (second : ledger.Lacks i freed' ledger'') (perm : freed.Perm freed') :
    ledger'.Alike ledger'' := by
  refine ⟨fun j => ?_, second.leaked.trans first.leaked.symm,
    second.regions.trans first.regions.symm⟩
  by_cases same : j = i
  · rw [same, first.users, second.users]
    exact Multiset.filter_congr fun block _ => not_congr perm.mem_iff.symm
  · rw [first.others j same, second.others j same]

/-- A free takes one object away. -/
theorem lacks_free (opened : ledger.opened i = true)
    (nodup : ((ledger.users i).map Block.address).Nodup)
    (live : object ∈ (ledger.users i).map Block.address) :
    ledger.Lacks i [object] (ledger.note (.request (.free i object)) .done) := by
  rw [note, if_pos opened]
  obtain ⟨block, rfl, own, others, leaked⟩ := Holding.exists_erase (mem_addresses_iff.1 live)
  refine ⟨rfl, ?_, others, leaked, rfl⟩
  rw [users, own, Multiset.map_cons, Multiset.nodup_cons] at nodup
  have kept : ∀ other ∈ Holding.usersIn i (ledger.holdings.eraseP (Holding.isAt i block.address)),
      other.address ∉ [block.address] := by
    intro other mem same
    have address := Multiset.mem_map_of_mem Block.address mem
    rw [List.mem_singleton.1 same] at address
    exact nodup.1 address
  rw [users, users, own, Multiset.filter_cons_of_neg _ (fun kept => kept List.mem_cons_self)]
  exact (Multiset.filter_eq_self.2 kept).symm

end Ledger

namespace SharedView

variable {view view' view'' : SharedView count} {back later : List UInt64}

/-- Another view has the same caches, and so many more pages are free. -/
structure Returns (view : SharedView count) (back : List UInt64) (view' : SharedView count) :
    Prop where
  initialized : ∀ i, (view'.allocators i).initialized = (view.allocators i).initialized
  tables : ∀ i, (view.allocators i).table.Matches (view'.allocators i).table
  free : view'.pool.free = back ++ view.pool.free
  released : view'.pool.released = back ++ view.pool.released

theorem Returns.refl (view : SharedView count) : view.Returns [] view :=
  ⟨fun _ => rfl, fun _ => .refl _, rfl, rfl⟩

theorem Returns.trans (first : view.Returns back view') (second : view'.Returns later view'') :
    view.Returns (later ++ back) view'' := by
  refine ⟨fun i => (second.initialized i).trans (first.initialized i),
    fun i => (first.tables i).trans (second.tables i), ?_, ?_⟩
  · rw [second.free, first.free, List.append_assoc]
  · rw [second.released, first.released, List.append_assoc]

/-- A cache that was found is found again. -/
theorem Returns.finds (returns : view.Returns back view') {i : Fin count} {bytes : UInt64}
    {ref : CacheRef} (finds : view.Finds i bytes ref) : view'.Finds i bytes ref := by
  obtain ⟨cls, request, found⟩ := finds.found
  exact ⟨(returns.initialized i).trans finds.opened, cls, request,
    ((returns.tables i).find cls).trans found⟩

/-- Another cache of the class in place of one of the caches. -/
theorem Returns.setCache {i : Fin count} {ref : CacheRef} {pool : PoolView} {cache : CacheView}
    (nodup : (view.allocators i).table.addresses.Nodup) (has : (view.allocators i).table.Has ref)
    (sizes : cache.objectSize = (view.cache i ref).objectSize)
    (free : pool.free = back ++ view.pool.free)
    (released : pool.released = back ++ view.pool.released) :
    view.Returns back (view.setCache i ref pool cache) := by
  refine ⟨fun j => ?_, fun j => ?_, free, released⟩
  · by_cases same : j = i
    · subst same
      simp only [SharedView.setCache, Function.update_self]
    · simp only [SharedView.setCache, Function.update_of_ne same]
  · by_cases same : j = i
    · subst same
      simp only [SharedView.setCache, Function.update_self]
      exact .setCache nodup has sizes
    · simp only [SharedView.setCache, Function.update_of_ne same]
      exact .refl _

end SharedView

/-- At most the page of the object is given back. -/
theorem CacheView.free_returns (size : PageSize) (view : CacheView) (object : UInt64)
    (pool : PoolView) : ∃ back,
    ((view.free size object).run pool).2.free = back ++ pool.free ∧
      ((view.free size object).run pool).2.released = back ++ pool.released := by
  rw [CacheView.free]
  split
  · exact ⟨[size.pageOf object], rfl, rfl⟩
  · exact ⟨[], rfl, rfl⟩

section Runs

variable {view : SharedView count} {shared : SharedHeap (MeteredPool size) count}
  {ledger : Ledger count} {i : Fin count} {object : UInt64} {freed : List UInt64}

/-- A live object is freed. -/
theorem SharedView.Describes.exists_free (fits : size.Fits maxObjectSize)
    (h : view.Describes shared) (accounts : ledger.Accounts size view)
    (opened : ledger.opened i = true) (live : object ∈ (ledger.users i).map Block.address) :
    ∃ shared' view' back,
      SharedHeap.perform (.request (.free i object)) shared = .ok .done shared' ∧
      view'.Describes shared' ∧
      (ledger.note (.request (.free i object)) .done).Accounts size view' ∧
      ledger.Lacks i [object] (ledger.note (.request (.free i object)) .done) ∧
      view.Returns back view' := by
  have sound := (h.sound i).table
  have differ := sound.nodup_addresses_users (h.regular i)
  rw [← accounts.users i] at differ
  have lacks := Ledger.lacks_free opened differ live
  obtain ⟨block, mem, rfl⟩ := Multiset.mem_map.1 live
  rw [accounts.users i] at mem
  rw [accounts.opened i] at opened
  obtain ⟨ref, cache, pool, has, freed, run, performed⟩ := h.exists_freed opened mem
  have permitted : ledger.Permits (.request (.free i block.address)) :=
    fun _ => Ledger.mem_addresses_iff.1 live
  obtain ⟨shared', ends, described, accounts'⟩ := h.perform_refines fits accounts permitted
  rw [performed] at ends described accounts'
  obtain ⟨back, free, released⟩ :=
    (view.cache i ref).free_returns size block.address view.pool
  rw [run] at free released
  exact ⟨shared', _, back, ends, described, accounts', lacks,
    .setCache (sound.nodup_addresses (h.regular i)) has freed.objectSize free released⟩

/-- Live objects are freed one after another. -/
theorem SharedView.Describes.exists_frees (fits : size.Fits maxObjectSize)
    (h : view.Describes shared) (accounts : ledger.Accounts size view)
    (reachable : SharedHeap.Reachable shared ledger) (opened : ledger.opened i = true)
    (nodup : freed.Nodup) (live : ∀ object ∈ freed, object ∈ (ledger.users i).map Block.address) :
    ∃ shared' view' back,
      (Action.frees i freed).mapM SharedHeap.perform shared =
        .ok (freed.map fun _ => .done) shared' ∧
      SharedHeap.Reachable shared' (ledger.freeAll i freed) ∧ view'.Describes shared' ∧
      (ledger.freeAll i freed).Accounts size view' ∧
      ledger.Lacks i freed (ledger.freeAll i freed) ∧ view.Returns back view' := by
  induction freed generalizing view shared ledger with
  | nil => exact ⟨shared, view, [], rfl, reachable, h, accounts, .refl ledger i, .refl view⟩
  | cons object later ih =>
    obtain ⟨fresh, nodup⟩ := List.nodup_cons.1 nodup
    have first := live object List.mem_cons_self
    obtain ⟨between, view₁, back, ends, described, accounts₁, lacks, returns⟩ :=
      h.exists_free fits accounts opened first
    have permitted : ledger.Permits (.request (.free i object)) :=
      fun _ => Ledger.mem_addresses_iff.1 first
    -- the other objects are still live
    have live₁ : ∀ other ∈ later, other ∈
        ((ledger.note (.request (.free i object)) .done).users i).map Block.address := by
      intro other mem
      obtain ⟨block, held, rfl⟩ := Multiset.mem_map.1 (live other (.tail _ mem))
      rw [lacks.users]
      refine Multiset.mem_map_of_mem _ (Multiset.mem_filter.2 ⟨held, fun same => fresh ?_⟩)
      rw [← List.mem_singleton.1 same]
      exact mem
    obtain ⟨after, view', more, ends', reachable', described', accounts', lacks', returns'⟩ :=
      ih described accounts₁ (reachable.step permitted ends) (lacks.opened ▸ opened) nodup live₁
    refine ⟨after, view', more ++ back, ?_, reachable', described', accounts', lacks.trans lacks',
      returns.trans returns'⟩
    rw [Action.frees, List.map_cons, List.mapM_cons, bind_ok ends]
    rw [Action.frees] at ends'
    rw [bind_ok ends']
    rfl

/-- A cache without an object has no slab. -/
theorem CacheView.stats_of_no_objects {cache : CacheView} (sound : cache.Sound size)
    (regular : cache.slabs ≠ [] → cache.Regular size) (empty : cache.objects size = 0) :
    cache.stats size = ⟨cache.objectSize, 0, 0, 0, none⟩ := by
  have bare : cache.slabs = [] := by
    refine List.eq_nil_iff_forall_not_mem.2 fun slab mem => ?_
    obtain ⟨object, own, _⟩ := (regular (List.ne_nil_of_mem mem)).exists_object sound mem
    rw [empty] at own
    exact Multiset.notMem_zero _ own
  have room : cache.room = [] := (List.append_eq_nil_iff.1 bare).1
  rw [stats, bare, empty, room]
  rfl

/-- A cache all of whose objects were freed. -/
theorem SharedView.Describes.stats_of_no_users {ref : CacheRef} {bytes : UInt64}
    (h : view.Describes shared) (accounts : ledger.Accounts size view)
    (finds : view.Finds i bytes ref) (other : (view.cache i ref).objectSize ≠ bootstrapClass.size)
    (gone : ∀ block ∈ ledger.users i, block.size ≠ (view.cache i ref).objectSize) :
    (shared.allocators.get i).stats shared.heap.store bytes =
      .ok (some ⟨(view.cache i ref).objectSize, 0, 0, 0, none⟩) := by
  have mem := finds.mem_caches h.sound h.regular
  have empty : (view.cache i ref).objects size = 0 := by
    rw [← accounts.objects_eq h.houses mem, Ledger.objects, if_neg other, Multiset.add_zero,
      Multiset.filter_eq_nil.2 gone, Multiset.map_zero]
  obtain ⟨cache, told, described⟩ := h.stats_of_finds finds
  rw [told, described.stats_eq, CacheView.stats_of_no_objects (h.sound_cache finds)
    ((h.sound i).table.regular_of_mem (h.regular i) mem) empty]

/-- A cache that was told about before all of its objects were freed. -/
theorem SharedView.Describes.stats_of_freed {view' : SharedView count}
    {shared' : SharedHeap (MeteredPool size) count} {ledger' : Ledger count} {back : List UInt64}
    {bytes : UInt64} {told : CacheStats} (h : view.Describes shared) (h' : view'.Describes shared')
    (accounts' : ledger'.Accounts size view') (returns : view.Returns back view')
    (lacks : ledger.Lacks i freed ledger')
    (tells : (shared.allocators.get i).stats shared.heap.store bytes = .ok (some told))
    (other : told.objectSize ≠ bootstrapClass.size)
    (all : ∀ holding ∈ ledger.holdings, holding.LiveAt i →
      holding.block.size = told.objectSize → holding.block.address ∈ freed) :
    (shared'.allocators.get i).stats shared'.heap.store bytes =
      .ok (some ⟨told.objectSize, 0, 0, 0, none⟩) := by
  obtain ⟨ref, finds⟩ := h.exists_finds_of_stats tells
  obtain ⟨cache, tells', described⟩ := h.stats_of_finds finds
  rw [tells'] at tells
  cases tells
  have sizes : (view'.cache i ref).objectSize = cache.stats.objectSize :=
    ((returns.tables i).sizes ref).trans described.objectSize.symm
  rw [← sizes] at other all ⊢
  refine h'.stats_of_no_users accounts' (returns.finds finds) other fun block mem same => ?_
  rw [lacks.users] at mem
  obtain ⟨user, kept⟩ := Multiset.mem_filter.1 mem
  obtain ⟨holding, held, own, rfl⟩ := Ledger.mem_users_iff.1 user
  exact kept (all holding held own same)

/-- **The order of frees does not matter for what is held.** -/
theorem SharedHeap.Reachable.frees_perm (fits : size.Fits maxObjectSize)
    (reachable : Reachable shared ledger) (opened : ledger.opened i = true) {freed' : List UInt64}
    (nodup : freed.Nodup) (live : ∀ object ∈ freed, ∃ holding ∈ ledger.holdings,
      holding.LiveAt i ∧ holding.block.address = object) (perm : freed.Perm freed') :
    ∃ after after' back back',
      (Action.frees i freed).mapM SharedHeap.perform shared =
        .ok (freed.map fun _ => .done) after ∧
      (Action.frees i freed').mapM SharedHeap.perform shared =
        .ok (freed'.map fun _ => .done) after' ∧
      Reachable after (ledger.freeAll i freed) ∧ Reachable after' (ledger.freeAll i freed') ∧
      after.Reorders after' (ledger.freeAll i freed) (ledger.freeAll i freed') ∧
      after.heap.source.released = back ++ shared.heap.source.released ∧
      after'.heap.source.released = back' ++ shared.heap.source.released ∧
      back.Nodup ∧ back.Perm back' ∧
      ∀ bytes told,
        (shared.allocators.get i).stats shared.heap.store bytes = .ok (some told) →
        told.objectSize ≠ bootstrapClass.size →
        (∀ holding ∈ ledger.holdings, holding.LiveAt i → holding.block.size = told.objectSize →
          holding.block.address ∈ freed) →
        (after.allocators.get i).stats after.heap.store bytes =
          .ok (some ⟨told.objectSize, 0, 0, 0, none⟩) := by
  obtain ⟨view, h, accounts⟩ := reachable.exists_view fits
  have live' : ∀ object ∈ freed, object ∈ (ledger.users i).map Block.address :=
    fun object mem => Ledger.mem_addresses_iff.2 (live object mem)
  obtain ⟨after, view₁, back, ends, reachable₁, h₁, accounts₁, lacks, returns⟩ :=
    h.exists_frees fits accounts reachable opened nodup live'
  obtain ⟨after', view₂, back', ends', reachable₂, h₂, accounts₂, lacks', returns'⟩ :=
    h.exists_frees fits accounts reachable opened (perm.nodup_iff.1 nodup)
      fun object mem => live' object (perm.mem_iff.2 mem)
  have alike := lacks.alike lacks' perm
  have same := fun i => (returns.tables i).symm.trans (returns'.tables i)
  -- the pages that are free now and were taken before are those that were given back
  have held := SharedView.held_eq_of_alike accounts₁ accounts₂ alike same h₁ h₂
  have pages : (view₁.pool.free : Multiset UInt64) = view₂.pool.free := by
    have split := h₁.pool.split
    rw [accounts₁.regions, ← alike.regions, ← accounts₂.regions, h₂.pool.split, held] at split
    exact (add_right_cancel split).symm
  rw [returns.free, returns'.free] at pages
  have free := h₁.pool.nodup
  rw [h₁.pool.split, returns.free, ← Multiset.coe_add] at free
  refine ⟨after, after', back, back', ends, ends', reachable₁, reachable₂,
    h₁.reorders accounts₁ accounts₂ alike same h₂ fits.wide, ?_, ?_,
    Multiset.coe_nodup.1 (Multiset.nodup_add.1 (Multiset.nodup_add.1 free).1).1,
    (List.perm_append_right_iff _).1 (Multiset.coe_eq_coe.1 pages),
    fun bytes told tells other all => h.stats_of_freed h₁ accounts₁ returns lacks tells other all⟩
  · rw [h₁.pool.released, h.pool.released, returns.released]
  · rw [h₂.pool.released, h.pool.released, returns'.released]

/-- All objects of a page are freed, the first one first or last. -/
theorem SharedHeap.Reachable.frees_perm_two :
    ∃ (shared after after' : SharedHeap (MeteredPool PageSize.default) 1) (ledger : Ledger 1),
      Reachable shared ledger ∧ ledger.opened 0 = true ∧
      (Action.frees 0 [0x12050, 0x120c0]).mapM SharedHeap.perform shared =
        .ok [.done, .done] after ∧
      (Action.frees 0 [0x120c0, 0x12050]).mapM SharedHeap.perform shared =
        .ok [.done, .done] after' ∧
      after.Reorders after' (ledger.freeAll 0 [0x12050, 0x120c0])
        (ledger.freeAll 0 [0x120c0, 0x12050]) ∧
      (after.allocators.get 0).stats after.heap.store 100 = .ok (some ⟨112, 0, 0, 0, none⟩) := by
  have fits : PageSize.default.Fits maxObjectSize := ⟨by decide, by decide +kernel⟩
  let actions : List (Action 1) := [.request (.init 0), .addMemory 0x10010 0x4000,
    .request (.alloc 0 100), .request (.alloc 0 100)]
  have legal : ({} : Ledger 1).Legal (.fresh PageSize.default 1 {}) actions :=
    ⟨trivial, fun _ _ _ => ⟨nofun, fun _ _ _ => ⟨trivial, fun _ _ _ => ⟨trivial, fun _ _ _ =>
      trivial⟩⟩⟩⟩
  let replies : List Reply :=
    [.done, .region (.ok ()), .object (.ok 0x12050), .object (.ok 0x120c0)]
  let ledger := ({} : Ledger 1).noteAll actions replies
  have holdings : ledger.holdings =
      [⟨0, ⟨0x120c0, 112⟩, false⟩, ⟨0, ⟨0x12050, 112⟩, false⟩] := by decide +kernel
  obtain ⟨others, shared, -, reachable, tested⟩ := Reachable.run_of_test fits (.start {}) legal
    (fun others shared => others = replies ∧ (shared.allocators.get 0).stats shared.heap.store 100 =
      .ok (some ⟨112, 1, 2, 1, some ⟨0x12000⟩⟩)) (by decide +kernel)
  obtain ⟨rfl, tells⟩ := of_decide_eq_true tested
  have opened : ledger.opened 0 = true := by decide +kernel
  have live : ∀ object ∈ [0x12050, 0x120c0], ∃ holding ∈ ledger.holdings,
      holding.LiveAt 0 ∧ holding.block.address = object := by
    rw [holdings]
    intro object mem
    rcases List.mem_pair.1 mem with rfl | rfl
    · exact ⟨_, .tail _ (.head _), ⟨rfl, rfl⟩, rfl⟩
    · exact ⟨_, .head _, ⟨rfl, rfl⟩, rfl⟩
  have perm : [0x12050, 0x120c0].Perm [(0x120c0 : UInt64), 0x12050] := .swap _ _ []
  obtain ⟨after, after', _, _, ends, ends', _, _, same, _, _, _, _, emptied⟩ :=
    reachable.frees_perm fits opened (by decide) live perm
  have all : ∀ holding ∈ ledger.holdings, holding.LiveAt 0 → holding.block.size = 112 →
      holding.block.address ∈ [0x12050, 0x120c0] := by
    rw [holdings]
    decide
  exact ⟨shared, after, after', ledger, reachable, opened, ends, ends', same,
    emptied 100 _ tells (by decide) all⟩

end Runs

end SlabHeap
