import SlabHeap.Proofs.Reachable
import SlabHeap.Proofs.TableUpdates

/-!
# Caches that are found

While the class of a size has a cache, a request of that size changes this cache and the pool,
and nothing else.  The same cache is found again after it (`SharedView.Finds.setCache`), and an
object of the size is freed to it.

`SharedView.cache` and `SharedView.setCache` look at one cache of an abstract heap and replace
it.  What a request that finds its cache does is written with them
(`SharedView.Finds.perform_alloc`, `SharedView.Finds.perform_free`), and the heap does the same
(`SharedView.Describes.alloc_refines_found`, `SharedView.Describes.free_refines_found`).
-/

namespace SlabHeap

/-! ## One cache of a table -/

namespace TableView

variable {size : PageSize} {view : TableView} {ref : CacheRef} {cache cache' : CacheView}
  {cls : SizeClass} {object : UInt64}

theorem setCache_setCache :
    (view.setCache ref cache).setCache ref cache' = view.setCache ref cache' := by
  cases ref with
  | bootstrap => rfl
  | stored address =>
    simp only [setCache, List.map_map]
    congr 1
    refine List.map_congr_left fun stored _ => ?_
    by_cases same : stored.address = address
    · simp only [Function.comp, same, if_true]
    · simp only [Function.comp, same, if_false]

theorem setCache_cache (nodup : view.addresses.Nodup) (has : view.Has ref) :
    view.setCache ref (view.cache ref) = view := by
  cases ref with
  | bootstrap => rfl
  | stored address =>
    obtain ⟨stored, mem, rfl⟩ := List.mem_map.1 has
    obtain ⟨front, back, split, found, replaced⟩ := exists_split nodup mem
    rw [found, replaced, ← split]

/-- A class that has a cache is served from it. -/
theorem alloc_eq_allocFrom (found : view.find cls = some ref) :
    view.alloc size cls = view.allocFrom size ref := by
  rw [alloc, findOrCreate, found]
  rfl

/-- What serving from a cache comes to on a pool. -/
theorem allocFrom_run (pool : PoolView) : (view.allocFrom size ref).run pool =
    (((((view.cache ref).alloc size).run pool).1.1,
      view.setCache ref (((view.cache ref).alloc size).run pool).1.2),
      (((view.cache ref).alloc size).run pool).2) := by
  rw [allocFrom, Plan.run_bind]
  rfl

/-- What freeing to a cache comes to on a pool. -/
theorem freeTo_run (pool : PoolView) : (view.freeTo size ref object).run pool =
    (view.setCache ref (((view.cache ref).free size object).run pool).1,
      (((view.cache ref).free size object).run pool).2) := by
  rw [freeTo, Plan.run_bind]
  rfl

end TableView

/-! ## One cache of a shared heap -/

namespace SharedView

variable {count : Nat} {size : PageSize} {view : SharedView count} {i j : Fin count}
  {ref ref' : CacheRef} {bytes bytes' object : UInt64} {served served' : CacheView}
  {pool pool' : PoolView}

/-- One of the caches. -/
def cache (view : SharedView count) (i : Fin count) (ref : CacheRef) : CacheView :=
  (view.allocators i).table.cache ref

/-- Another pool, and another cache in place of one of the caches. -/
def setCache (view : SharedView count) (i : Fin count) (ref : CacheRef) (pool : PoolView)
    (cache : CacheView) : SharedView count :=
  { view with
    pool
    allocators := Function.update view.allocators i { view.allocators i with
      table := (view.allocators i).table.setCache ref cache } }

theorem setCache_setCache : (view.setCache i ref pool served).setCache i ref pool' served' =
    view.setCache i ref pool' served' := by
  simp only [setCache, Function.update_self, Function.update_idem, TableView.setCache_setCache]

/-- Freeing to a cache changes the cache. -/
theorem perform_freeTo (opened : (view.allocators i).initialized = true)
    (freed : (view.allocators i).table.free size object =
      (view.allocators i).table.freeTo size ref object) :
    view.perform size (.request (.free i object)) =
      (.done, view.setCache i ref (((view.cache i ref).free size object).run view.pool).2
        (((view.cache i ref).free size object).run view.pool).1) := by
  have run : ((view.allocators i).free size object).run view.pool =
      ({ view.allocators i with
        table := (view.allocators i).table.setCache ref
          (((view.cache i ref).free size object).run view.pool).1 },
        (((view.cache i ref).free size object).run view.pool).2) := by
    rw [AllocatorView.free, if_pos opened, freed, Plan.run_bind, TableView.freeTo_run]
    rfl
  simp only [perform, run, setCache]

/-- The class of a size has a cache, and its allocator is open. -/
structure Finds (view : SharedView count) (i : Fin count) (bytes : UInt64) (ref : CacheRef) :
    Prop where
  opened : (view.allocators i).initialized = true
  found : ∃ cls, SizeClass.ofRequest? bytes = some cls ∧
    (view.allocators i).table.find cls = some ref

namespace Finds

variable (finds : view.Finds i bytes ref)

include finds

/-- Serving changes the cache of the size. -/
theorem perform_alloc : view.perform size (.request (.alloc i bytes)) =
    (.object (((view.cache i ref).alloc size).run view.pool).1.1,
      view.setCache i ref (((view.cache i ref).alloc size).run view.pool).2
        (((view.cache i ref).alloc size).run view.pool).1.2) := by
  obtain ⟨cls, request, found⟩ := finds.found
  have serves : (view.allocators i).alloc size bytes = (view.allocators i).allocOf size cls := by
    rw [AllocatorView.alloc, if_pos finds.opened, request]
  have run : ((view.allocators i).allocOf size cls).run view.pool =
      (((((view.cache i ref).alloc size).run view.pool).1.1, { view.allocators i with
        table := (view.allocators i).table.setCache ref
          (((view.cache i ref).alloc size).run view.pool).1.2 }),
        (((view.cache i ref).alloc size).run view.pool).2) := by
    rw [AllocatorView.allocOf, TableView.alloc_eq_allocFrom found, Plan.run_bind,
      TableView.allocFrom_run]
    rfl
  simp only [perform, serves, run, setCache]

variable (sound : ∀ i, (view.allocators i).Sound size)
  (regular : ∀ i, (view.allocators i).table.Regular size)

include sound regular

theorem has : (view.allocators i).table.Has ref := by
  obtain ⟨cls, _, found⟩ := finds.found
  exact (TableView.find_some (sound i).table (regular i) found).1

theorem objectSize : (view.cache i ref).objectSize = servedSize bytes := by
  obtain ⟨cls, request, found⟩ := finds.found
  rw [servedSize, request]
  exact (TableView.find_some (sound i).table (regular i) found).2

theorem mem_caches : view.cache i ref ∈ (view.allocators i).table.caches :=
  TableView.mem_caches_of_has ((sound i).table.nodup_addresses (regular i))
    (finds.has sound regular)

theorem cache_setCache : (view.setCache i ref pool served).cache i ref = served := by
  simp only [SharedView.cache, SharedView.setCache, Function.update_self]
  exact TableView.cache_setCache ((sound i).table.nodup_addresses (regular i))
    (finds.has sound regular)

theorem setCache_cache : view.setCache i ref pool (view.cache i ref) = { view with pool } := by
  simp only [SharedView.setCache, SharedView.cache, TableView.setCache_cache
    ((sound i).table.nodup_addresses (regular i)) (finds.has sound regular),
    Function.update_eq_self]

/-- The other caches stay. -/
theorem mem_caches_setCache (mem : served' ∈ (view.allocators j).table.caches) :
    (j = i ∧ served' = view.cache i ref) ∨
      served' ∈ ((view.setCache i ref pool served).allocators j).table.caches := by
  by_cases same : j = i
  · subst same
    obtain ⟨rest, focus⟩ := TableView.exists_focus
      ((sound j).table.nodup_addresses (regular j)) (finds.has sound regular)
    rcases List.mem_cons.1 (focus.before.mem_iff.1 mem) with own | other
    · exact .inl ⟨rfl, own⟩
    · right
      simp only [SharedView.setCache, Function.update_self]
      exact (focus.after served).mem_iff.2 (.tail _ other)
  · right
    simp only [SharedView.setCache, Function.update_of_ne same]
    exact mem

/-- A cache that keeps its class is found again, and so is every other one. -/
theorem setCache (sizes : served.objectSize = (view.cache i ref).objectSize)
    (finds' : view.Finds j bytes' ref') :
    (view.setCache i ref pool served).Finds j bytes' ref' := by
  by_cases same : j = i
  · subst same
    obtain ⟨cls, request, found⟩ := finds'.found
    refine ⟨?_, cls, request, ?_⟩
    · simp only [SharedView.setCache, Function.update_self]
      exact finds.opened
    · simp only [SharedView.setCache, Function.update_self]
      rw [TableView.find_setCache ((sound j).table.nodup_addresses (regular j))
        (finds.has sound regular) sizes]
      exact found
  · have kept : (view.setCache i ref pool served).allocators j = view.allocators j :=
      Function.update_of_ne same _ _
    exact ⟨kept ▸ finds'.opened, kept ▸ finds'.found⟩

/-- An object of the cache is put back into the cache. -/
theorem perform_free (own : object ∈ (view.cache i ref).objects size) :
    view.perform size (.request (.free i object)) =
      (.done, view.setCache i ref (((view.cache i ref).free size object).run view.pool).2
        (((view.cache i ref).free size object).run view.pool).1) := by
  obtain ⟨cls, _, found⟩ := finds.found
  have mem := finds.mem_caches sound regular
  have some := (sound i).table.regular_of_mem (regular i) mem
    (CacheView.slabs_ne_nil_of_object own)
  have sizes := (TableView.find_some (sound i).table (regular i) found).2
  have holder := (sound i).table.holder_eq_find (regular i) mem (some.pageOf_mem own) sizes.symm
  have freed : (view.allocators i).table.free size object =
      (view.allocators i).table.freeTo size ref object := by
    rw [TableView.free, holder, found]
  exact perform_freeTo finds.opened freed

end Finds

/-- A cache of an open allocator is found by its class. -/
theorem exists_finds_of_mem (sound : ∀ i, (view.allocators i).Sound size)
    (regular : ∀ i, (view.allocators i).table.Regular size)
    (opened : (view.allocators i).initialized = true)
    (mem : served ∈ (view.allocators i).table.caches) {cls : SizeClass}
    (request : SizeClass.ofRequest? bytes = some cls) (sizes : cls.size = served.objectSize) :
    ∃ ref, view.Finds i bytes ref ∧ view.cache i ref = served := by
  obtain ⟨ref, found, _, same⟩ := (sound i).table.find_of_mem (regular i)
    ((sound i).registered.trans opened) mem sizes
  exact ⟨ref, ⟨opened, cls, request, found⟩, same⟩

/-- The cache of a user's object is found by its size. -/
theorem exists_finds (sound : ∀ i, (view.allocators i).Sound size)
    (regular : ∀ i, (view.allocators i).table.Regular size)
    (opened : (view.allocators i).initialized = true) {block : Block}
    (mem : block ∈ (view.allocators i).table.users size) (sizes : servedSize bytes = block.size) :
    ∃ ref, view.Finds i bytes ref ∧ block.address ∈ (view.cache i ref).objects size := by
  obtain ⟨_, held, same, own⟩ := (sound i).table.exists_cache_of_users (regular i) mem
  have fits := ((sound i).table.regular_of_mem (regular i) held
    (CacheView.slabs_ne_nil_of_object own)).fits
  have served := sizes.trans same.symm
  obtain ⟨cls, request, rounded⟩ := exists_class_of_servedSize (served ▸ fits.size_pos)
  obtain ⟨ref, finds, rfl⟩ :=
    exists_finds_of_mem sound regular opened held request (rounded.trans served)
  exact ⟨ref, finds, own⟩

/-! ## Caches that are found in memory -/

namespace Describes

variable {shared : SharedHeap (MeteredPool size) count} (h : view.Describes shared)

include h

/-- An object of a user is put back into one of the caches. -/
theorem exists_freed (opened : (view.allocators i).initialized = true) {block : Block}
    (mem : block ∈ (view.allocators i).table.users size) : ∃ ref cache pool,
    (view.allocators i).table.Has ref ∧ (view.cache i ref).Freed size {block.address} cache ∧
      ((view.cache i ref).free size block.address).run view.pool = (cache, pool) ∧
      view.perform size (.request (.free i block.address)) =
        (.done, view.setCache i ref pool cache) := by
  have sound := (h.sound i).table
  obtain ⟨ref, has, _, held, own, freed⟩ :=
    sound.free_eq (h.regular i) ((h.sound i).registered.trans opened) mem
  have regular := sound.regular_of_mem (h.regular i) held (CacheView.slabs_ne_nil_of_object own)
  exact ⟨ref, _, _, has,
    (CacheView.free_always regular (sound.caches _ held) own).run view.pool, rfl,
    perform_freeTo opened freed⟩

/-- An allocator tells about caches that are found only. -/
theorem exists_finds_of_stats {stats : CacheStats}
    (told : (shared.allocators.get i).stats shared.heap.store bytes = .ok (some stats)) :
    ∃ ref, view.Finds i bytes ref := by
  unfold Allocator.stats at told
  split at told
  · cases told
  · rename_i cls request
    rw [(h.allocators i).table.find_eq] at told
    cases found : (view.allocators i).table.find cls with
    | none =>
      rw [found] at told
      cases told
    | some ref =>
      have registered : (view.allocators i).table.registered = true := by
        unfold TableView.find at found
        split at found
        · split at found
          · assumption
          · cases found
        · obtain ⟨stored, first, _⟩ := Option.map_eq_some_iff.1 found
          exact (h.sound i).table.registered (List.ne_nil_of_mem (List.mem_of_find?_eq_some first))
      exact ⟨ref, (h.sound i).registered.symm.trans registered, cls, request, found⟩

variable (finds : view.Finds i bytes ref)

include finds

/-- What an allocator tells about a cache that is found. -/
theorem stats_of_finds : ∃ cache,
    (shared.allocators.get i).stats shared.heap.store bytes = .ok (some cache.stats) ∧
      (view.cache i ref).Describes size cache shared.heap.memory := by
  obtain ⟨cls, request, found⟩ := finds.found
  refine ⟨(shared.allocators.get i).table.cache shared.heap.store ref, ?_,
    (h.allocators i).table.cacheOf (h.sound i).table (h.regular i)
      (finds.has h.sound h.regular)⟩
  rw [Allocator.stats, request]
  dsimp only
  rw [(h.allocators i).table.find_eq, found]
  rfl

theorem sound_cache : (view.cache i ref).Sound size :=
  (h.sound i).table.caches _ (finds.mem_caches h.sound h.regular)

theorem pages_cache_le : (view.cache i ref).pages ≤ view.held := by
  rw [view.held_eq i]
  exact le_trans (TableView.pages_le (finds.mem_caches h.sound h.regular))
    (Multiset.le_add_right _ _)

variable (fits : size.Fits maxObjectSize)

include fits

theorem fits_cache : size.Fits (view.cache i ref).objectSize := by
  obtain ⟨cls, request, _⟩ := finds.found
  have sizes := finds.objectSize h.sound h.regular
  rw [servedSize, request] at sizes
  obtain ⟨pos, le⟩ := SizeClass.size_of_request request
  exact sizes ▸ fits.of_le pos le

theorem regular_cache : (view.cache i ref).Regular size := by
  have le := h.pages_cache_le finds
  exact (h.sound_cache finds).regular (h.fits_cache finds fits)
    (Multiset.nodup_of_le le h.houses.nodup)
    (fun page held => h.houses.aligned page (Multiset.mem_of_le le held))
    (fun page held => h.houses.nonzero page (Multiset.mem_of_le le held))

/-- The cache can be given a free page. -/
theorem regular_openSlab : ∀ page ∈ view.pool.free,
    ((view.cache i ref).openSlab size page).Regular size := by
  intro page mem
  have added := h.pool.mem_added_of_free mem
  refine (h.regular_cache finds fits).openSlab (fun held => ?_) (h.pool.aligned page added)
    (h.pool.nonzero page added)
  exact h.pool.notMem_free_of_held (Multiset.mem_of_le (h.pages_cache_le finds) held) mem

variable {ledger : Ledger count} {cache : CacheView} {pool : PoolView}
  (accounts : ledger.Accounts size view)

include accounts

/-- A request for an object is served from the cache. -/
theorem alloc_refines_found {answer : Except AllocError UInt64}
    (run : ((view.cache i ref).alloc size).run view.pool = ((answer, cache), pool)) :
    ∃ shared',
      SharedHeap.perform (.request (.alloc i bytes)) shared = .ok (.object answer) shared' ∧
        (view.setCache i ref pool cache).Describes shared' ∧
        (ledger.note (.request (.alloc i bytes)) (.object answer)).Accounts size
          (view.setCache i ref pool cache) := by
  have performed : view.perform size (.request (.alloc i bytes)) = _ := finds.perform_alloc
  have permitted : ledger.Permits (.request (.alloc i bytes)) := trivial
  obtain ⟨shared', ends, described, accounts'⟩ := h.perform_refines fits accounts permitted
  rw [performed, run] at ends described accounts'
  exact ⟨shared', ends, described, accounts'⟩

/-- An object of the cache is put back into it. -/
theorem free_refines_found (own : object ∈ (view.cache i ref).objects size)
    (permitted : ledger.Permits (.request (.free i object)))
    (run : ((view.cache i ref).free size object).run view.pool = (cache, pool)) :
    ∃ shared', SharedHeap.perform (.request (.free i object)) shared = .ok .done shared' ∧
      (view.setCache i ref pool cache).Describes shared' ∧
      (ledger.note (.request (.free i object)) .done).Accounts size
        (view.setCache i ref pool cache) := by
  have performed := finds.perform_free h.sound h.regular own
  obtain ⟨shared', ends, described, accounts'⟩ := h.perform_refines fits accounts permitted
  rw [performed, run] at ends described accounts'
  exact ⟨shared', ends, described, accounts'⟩

end Describes

end SharedView

end SlabHeap
