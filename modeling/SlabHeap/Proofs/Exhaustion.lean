import SlabHeap.Proofs.Accounting
import SlabHeap.Proofs.AllocationStages
import SlabHeap.Proofs.FoundCaches
import SlabHeap.Proofs.RoundTrips

/-!
# How many objects are left

A cache serves as many objects as it has free slots, and as many again as its slabs have slots for
each free page.  Every request it serves leaves one less, and nothing else is ever lost: a slab
that fills up has no free slot, and a page that is opened brings as many as it has slots.  So the
number of requests that are served until the first refusal is known from the start
(`SharedHeap.Exhausts`), and the refusal is for want of a page.

A class without a cache gets one by its first request.  The cache is an object of the bootstrap
cache, and so it may cost a page.
-/

namespace SlabHeap

/-! ## Free slots -/

namespace CacheView

variable {size : PageSize} {view : CacheView} {base slot page : UInt64} {free : List UInt64}
  {rest : List SlabView} {pool : PoolView}

/-- The number of free slots. -/
def spare (view : CacheView) : Nat := (view.slabs.map fun slab => slab.free.length).sum

/-- Each slot is free or has an object. -/
theorem Regular.card_objects_add_spare (regular : view.Regular size) :
    (view.objects size).card + view.spare = view.slabs.length * size.slots view.objectSize := by
  have slots := regular.slabs
  rw [objects, spare, Multiset.coe_card]
  generalize view.slabs = slabs at slots
  induction slabs with
  | nil => simp
  | cons slab slabs ih =>
    have own := SlabView.length_liveSlots regular.fits (slots slab List.mem_cons_self)
    have others := ih fun other mem => slots other (.tail _ mem)
    rw [List.flatMap_cons, List.length_append, SlabView.length_objects, List.map_cons,
      List.sum_cons, List.length_cons, Nat.succ_mul]
    omega

theorem spare_openSlab (view : CacheView) (page : UInt64) :
    (view.openSlab size page).spare = size.slots view.objectSize + view.spare := by
  simp only [spare, slabs_openSlab, List.map_cons, List.sum_cons, SlabView.fresh,
    PageSize.Fits.length_allSlots]

/-- Serving takes one free slot. -/
theorem spare_serve (front : view.room = ⟨base, slot :: free⟩ :: rest) :
    (view.serve size).2.spare + 1 = view.spare := by
  have before := (slabs_front front).map fun slab => slab.free.length
  have after : (view.serve size).2.slabs.Perm
      (⟨base, free⟩ :: (rest ++ view.full.map fun base => ⟨base, []⟩)) := by
    simp only [serve, front]
    exact slabs_retire
  rw [spare, spare, before.sum_eq, (after.map fun slab => slab.free.length).sum_eq]
  simp only [List.map_cons, List.sum_cons, List.length_cons]
  omega

/-- Full slabs have no free slot. -/
theorem spare_eq_zero (none : view.room = []) : view.spare = 0 := by
  simp [spare, slabs, none, Function.comp_def]

theorem spare_pos (sound : view.Sound size) (some : view.room ≠ []) : 0 < view.spare := by
  cases room : view.room with
  | nil => exact absurd room some
  | cons front rest =>
    have free := List.length_pos_of_ne_nil (sound.free front (room ▸ List.mem_cons_self))
    simp only [spare, slabs, room, List.cons_append, List.map_cons, List.sum_cons]
    omega

variable (sound : view.Sound size) (fits : size.Fits view.objectSize)
  (serving : pool.refusal = none)

include sound fits serving

/-- Without a free slot and a free page there is no object. -/
theorem alloc_exhausted
    (left : view.spare + pool.free.length * size.slots view.objectSize = 0) :
    ∃ pool', (view.alloc size).run pool = ((.error .noMemory, view), pool') ∧
      pool'.free = [] := by
  have room : view.room = [] := by
    refine Decidable.byContradiction fun some => ?_
    have pos := spare_pos sound some
    omega
  have none : pool.free = [] := by
    have pos := fits.slots_pos
    have zero : pool.free.length * size.slots view.objectSize = 0 := by omega
    exact List.length_eq_zero_iff.1 ((Nat.mul_eq_zero.1 zero).resolve_right (Nat.ne_of_gt pos))
  have refused : pool.take = (.error .noMemory, { pool with requests := pool.requests + 1 }) := by
    simp only [PoolView.take, serving, PoolView.pop, none]
  refine ⟨{ pool with requests := pool.requests + 1 }, ?_, none⟩
  rw [alloc, room, Plan.run, refused]
  rfl

/-- Otherwise there is one, and one less is left. -/
theorem alloc_spends {left : Nat}
    (more : view.spare + pool.free.length * size.slots view.objectSize = left + 1) :
    ∃ object view' pool', (view.alloc size).run pool = ((.ok object, view'), pool') ∧
      view'.objectSize = view.objectSize ∧ pool'.refusal = none ∧
      view'.spare + pool'.free.length * size.slots view'.objectSize = left := by
  cases room : view.room with
  | nil =>
    have none := spare_eq_zero room
    cases pages : pool.free with
    | nil =>
      rw [none, pages, List.length_nil] at more
      omega
    | cons page pages' =>
      obtain ⟨slot, free, front, fresh, _⟩ := openSlab_front fits room page
      have served : (view.openSlab size page).Served size _ _ := serve_served fits front fresh
      have spent : ((view.openSlab size page).serve size).2.spare + 1 = _ := spare_serve front
      have taken : pool.take = (.ok page,
          { pool with free := pages', requests := pool.requests + 1 }) := by
        simp only [PoolView.take, serving, PoolView.pop, pages]
      have sizes : (view.openSlab size page).objectSize = view.objectSize := rfl
      refine ⟨((view.openSlab size page).serve size).1, ((view.openSlab size page).serve size).2,
        { pool with free := pages', requests := pool.requests + 1 }, ?_,
        served.objectSize, serving, ?_⟩
      · rw [alloc, room, Plan.run, taken]
        rfl
      · rw [spare_openSlab, none] at spent
        rw [none, pages, List.length_cons, Nat.succ_mul] at more
        rw [served.objectSize, sizes]
        dsimp only
        omega
  | cons slab rest =>
    obtain ⟨base, free⟩ := slab
    have listed : SlabView.mk base free ∈ view.room := room ▸ List.mem_cons_self
    cases free with
    | nil => exact absurd rfl (sound.free _ listed)
    | cons slot free =>
      have served := serve_served fits room (sound.slots _ listed)
      have spent : (view.serve size).2.spare + 1 = view.spare := spare_serve room
      refine ⟨(view.serve size).1, (view.serve size).2, pool, ?_, served.objectSize, serving, ?_⟩
      · rw [alloc, room]
        rfl
      · rw [served.objectSize]
        omega

end CacheView

/-! ## Creating a cache -/

namespace TableView

variable {size : PageSize} {view : TableView} {cls : SizeClass} {bootstrap : CacheView}
  {pool pool' : PoolView}

/-- A class whose cache cannot be stored is not served. -/
theorem alloc_run_unstored (absent : view.find cls = none) (registered : view.registered = true)
    {error : AllocError}
    (run : (view.bootstrap.alloc size).run pool = ((.error error, bootstrap), pool')) :
    (view.alloc size cls).run pool = ((.error error, view), pool') := by
  rw [alloc, Plan.run_bind, findOrCreate, absent]
  dsimp only
  rw [create, if_pos registered, Plan.run_bind, run]
  rfl

/-- A class without a cache is served from a new one. -/
theorem alloc_run_created (absent : view.find cls = none) (registered : view.registered = true)
    {storage : UInt64}
    (run : (view.bootstrap.alloc size).run pool = ((.ok storage, bootstrap), pool')) :
    (view.alloc size cls).run pool =
      ((view.addCache cls storage bootstrap).allocFrom size (.stored storage)).run pool' := by
  rw [alloc, Plan.run_bind, findOrCreate, absent]
  dsimp only
  rw [create, if_pos registered, Plan.run_bind, run]
  rfl

/-- A new cache is among the caches after it was replaced. -/
theorem mem_caches_setCache_addCache {storage : UInt64} (cache : CacheView) :
    cache ∈ ((view.addCache cls storage bootstrap).setCache (.stored storage) cache).caches := by
  have first : (⟨storage, cache⟩ : StoredView) ∈
      ((view.addCache cls storage bootstrap).setCache (.stored storage) cache).stored := by
    simp [setCache, addCache]
  have listed : cache ∈ ((view.addCache cls storage bootstrap).setCache
      (.stored storage) cache).stored.map StoredView.view := List.mem_map_of_mem first
  exact .tail _ listed

end TableView

/-! ## Serving until nothing is left -/

section Serving

variable {size : PageSize} {count : Nat} {shared shared' : SharedHeap (MeteredPool size) count}
  {ledger : Ledger count} {view : SharedView count} {i : Fin count} {ref : CacheRef}
  {bytes : UInt64} {left : Nat}

/-- So many requests of a size are served, and the next one is refused when the pool has no
page. -/
def SharedHeap.Exhausts (shared : SharedHeap (MeteredPool size) count) (i : Fin count)
    (bytes : UInt64) (left : Nat) : Prop :=
  ∃ (objects : List UInt64) (after last : SharedHeap (MeteredPool size) count),
    objects.length = left ∧
    (List.replicate left (Action.request (.alloc i bytes))).mapM SharedHeap.perform shared =
      .ok (objects.map fun object => .object (.ok object)) after ∧
    SharedHeap.perform (.request (.alloc i bytes)) after = .ok (.object (.error .noMemory)) last ∧
    last.heap.source.pool.free = 0

theorem SharedHeap.Exhausts.of_refused
    (refused : SharedHeap.perform (.request (.alloc i bytes)) shared =
      .ok (.object (.error .noMemory)) shared')
    (empty : shared'.heap.source.pool.free = 0) : shared.Exhausts i bytes 0 :=
  ⟨[], shared, shared', rfl, rfl, refused, empty⟩

theorem SharedHeap.Exhausts.of_served {object : UInt64}
    (served : SharedHeap.perform (.request (.alloc i bytes)) shared =
      .ok (.object (.ok object)) shared')
    (later : shared'.Exhausts i bytes left) : shared.Exhausts i bytes (left + 1) := by
  obtain ⟨objects, after, last, length, ends, refused, empty⟩ := later
  refine ⟨object :: objects, after, last, ?_, ?_, refused, empty⟩
  · rw [List.length_cons, length]
  · rw [List.replicate_succ, List.mapM_cons, bind_ok served, bind_ok ends]
    rfl

/-- A pool without a page counts none. -/
theorem SharedView.Describes.free_eq_zero (h : view.Describes shared)
    (none : view.pool.free = []) : shared.heap.source.pool.free = 0 := by
  have counted := h.pool.stack.count
  rw [none] at counted
  exact UInt64.toNat_inj.1 counted

/-- A class that has a cache is served as long as there are free slots and free pages. -/
theorem SharedView.Describes.exhausts_found (fits : size.Fits maxObjectSize)
    (h : view.Describes shared) (accounts : ledger.Accounts size view)
    (finds : view.Finds i bytes ref) (serving : view.pool.refusal = none)
    (spare : (view.cache i ref).spare +
      view.pool.free.length * size.slots (view.cache i ref).objectSize = left) :
    shared.Exhausts i bytes left := by
  induction left generalizing view shared ledger with
  | zero =>
    obtain ⟨pool, run, none⟩ :=
      CacheView.alloc_exhausted (h.sound_cache finds) (h.fits_cache finds fits) serving spare
    obtain ⟨shared', refused, described, _⟩ := h.alloc_refines_found finds fits accounts run
    exact .of_refused refused (described.free_eq_zero none)
  | succ left ih =>
    obtain ⟨object, cache, pool, run, sizes, serving', spare'⟩ :=
      CacheView.alloc_spends (h.sound_cache finds) (h.fits_cache finds fits) serving spare
    obtain ⟨shared', served, described, accounts'⟩ := h.alloc_refines_found finds fits accounts run
    have found : (view.setCache i ref pool cache).cache i ref = cache :=
      finds.cache_setCache h.sound h.regular
    rw [← found] at spare'
    exact .of_served served
      (ih described accounts' (finds.setCache h.sound h.regular sizes finds) serving' spare')

/-- Another pool, and another table in place of one of the tables. -/
def SharedView.setTable (view : SharedView count) (i : Fin count) (pool : PoolView)
    (table : TableView) : SharedView count :=
  { view with
    pool
    allocators := Function.update view.allocators i { view.allocators i with table } }

@[simp] theorem SharedView.allocators_setTable (pool : PoolView) (table : TableView) :
    (view.setTable i pool table).allocators i = { view.allocators i with table } :=
  Function.update_self i _ _

/-- A cache of the other table is found by its class. -/
theorem SharedView.Describes.exists_finds_setTable {pool : PoolView} {table : TableView}
    {cache : CacheView} {cls : SizeClass} (h : (view.setTable i pool table).Describes shared)
    (opened : (view.allocators i).initialized = true) (mem : cache ∈ table.caches)
    (request : SizeClass.ofRequest? bytes = some cls) (sizes : cls.size = cache.objectSize) :
    ∃ ref, (view.setTable i pool table).Finds i bytes ref ∧
      (view.setTable i pool table).cache i ref = cache := by
  have opened' : ((view.setTable i pool table).allocators i).initialized = true := by
    rw [allocators_setTable]
    exact opened
  have mem' : cache ∈ ((view.setTable i pool table).allocators i).table.caches := by
    rw [allocators_setTable]
    exact mem
  exact exists_finds_of_mem h.sound h.regular opened' mem' request sizes

section Absent

variable {cls : SizeClass} {bootstrap served : CacheView} {storage : UInt64}
  {answer : Except AllocError UInt64} {error : AllocError} {pool pool' : PoolView}
  (opened : (view.allocators i).initialized = true)
  (registered : (view.allocators i).table.registered = true)
  (request : SizeClass.ofRequest? bytes = some cls)
  (absent : (view.allocators i).table.find cls = none)

include opened registered request absent

/-- The bootstrap cache serves the storage, and a new cache serves the object. -/
theorem SharedView.perform_alloc_created
    (stored : ((view.allocators i).table.bootstrap.alloc size).run view.pool =
      ((.ok storage, bootstrap), pool))
    (run : (({ objectSize := cls.size } : CacheView).alloc size).run pool =
      ((answer, served), pool')) :
    view.perform size (.request (.alloc i bytes)) = (.object answer, view.setTable i pool'
      (((view.allocators i).table.addCache cls storage bootstrap).setCache (.stored storage)
        served)) := by
  have serves : ((view.allocators i).alloc size bytes).run view.pool =
      ((answer, { view.allocators i with
        table := ((view.allocators i).table.addCache cls storage bootstrap).setCache
          (.stored storage) served }), pool') := by
    rw [AllocatorView.alloc, if_pos opened, request]
    dsimp only
    rw [AllocatorView.allocOf, Plan.run_bind, TableView.alloc_run_created absent registered stored,
      TableView.allocFrom_run, TableView.cache_addCache_self, run]
    rfl
  simp only [perform, serves, setTable]

/-- A class whose cache cannot be stored is not served. -/
theorem SharedView.perform_alloc_unstored
    (refused : ((view.allocators i).table.bootstrap.alloc size).run view.pool =
      ((.error error, bootstrap), pool)) :
    view.perform size (.request (.alloc i bytes)) =
      (.object (.error error), { view with pool }) := by
  have serves : ((view.allocators i).alloc size bytes).run view.pool =
      ((.error error, view.allocators i), pool) := by
    rw [AllocatorView.alloc, if_pos opened, request]
    dsimp only
    rw [AllocatorView.allocOf, Plan.run_bind,
      TableView.alloc_run_unstored absent registered refused]
    rfl
  simp only [perform, serves, Function.update_eq_self]

end Absent

namespace SharedView.Describes

variable {cls : SizeClass} {bootstrap : CacheView} {storage : UInt64} {pool : PoolView}
  (fits : size.Fits maxObjectSize) (h : view.Describes shared)
  (accounts : ledger.Accounts size view) (opened : (view.allocators i).initialized = true)
  (request : SizeClass.ofRequest? bytes = some cls)
  (absent : (view.allocators i).table.find cls = none)

include fits h accounts opened request absent

/-- A class without a cache is served from the pages that the pool has once the cache is
stored. -/
theorem exhausts_created
    (stored : ((view.allocators i).table.bootstrap.alloc size).run view.pool =
      ((.ok storage, bootstrap), pool))
    (serving : pool.refusal = none) :
    shared.Exhausts i bytes (pool.free.length * size.slots cls.size) := by
  have registered := (h.sound i).registered.trans opened
  obtain ⟨pos, le⟩ := SizeClass.size_of_request request
  have fits' : size.Fits ({ objectSize := cls.size } : CacheView).objectSize := fits.of_le pos le
  have sound : ({ objectSize := cls.size } : CacheView).Sound size := .nil size cls.size
  have none : ({ objectSize := cls.size } : CacheView).spare = 0 := rfl
  have permitted : ledger.Permits (.request (.alloc i bytes)) := trivial
  obtain ⟨shared', ends, described, accounts'⟩ := h.perform_refines fits accounts permitted
  cases left : pool.free.length * size.slots cls.size with
  | zero =>
    have nothing : ({ objectSize := cls.size } : CacheView).spare +
        pool.free.length * size.slots cls.size = 0 := by rw [none, left]
    obtain ⟨pool', run, empty⟩ := CacheView.alloc_exhausted sound fits' serving nothing
    rw [perform_alloc_created opened registered request absent stored run] at ends described
    exact .of_refused ends (described.free_eq_zero empty)
  | succ left' =>
    have more : ({ objectSize := cls.size } : CacheView).spare +
        pool.free.length * size.slots cls.size = left' + 1 := by rw [none, left, Nat.zero_add]
    obtain ⟨object, served, pool', run, sizes, serving', spare⟩ :=
      CacheView.alloc_spends sound fits' serving more
    rw [perform_alloc_created opened registered request absent stored run]
      at ends described accounts'
    obtain ⟨ref, finds, found⟩ := described.exists_finds_setTable opened
      (TableView.mem_caches_setCache_addCache served) request sizes.symm
    rw [← found] at spare
    exact .of_served ends (described.exhausts_found fits accounts' finds serving' spare)

/-- A class without a cache costs the pool a page if the bootstrap cache has no room. -/
theorem exhausts_absent (serving : view.pool.refusal = none) :
    shared.Exhausts i bytes (if (view.allocators i).table.bootstrap.room = [] then
      (view.pool.free.length - 1) * size.slots cls.size
    else view.pool.free.length * size.slots cls.size) := by
  have registered := (h.sound i).registered.trans opened
  have own : (view.allocators i).table.bootstrap ∈ (view.allocators i).table.caches :=
    List.mem_cons_self
  have sound := (h.sound i).table.caches _ own
  have bootstrapFits : size.Fits (view.allocators i).table.bootstrap.objectSize := by
    rw [(h.sound i).table.bootstrapSize]
    exact fits.of_le (by decide) (by decide)
  cases left : (view.allocators i).table.bootstrap.spare + view.pool.free.length *
      size.slots (view.allocators i).table.bootstrap.objectSize with
  | zero =>
    have room : (view.allocators i).table.bootstrap.room = [] := by
      refine Decidable.byContradiction fun some => ?_
      have pos := CacheView.spare_pos sound some
      omega
    have none : view.pool.free.length = 0 := by
      have zero := Nat.eq_zero_of_add_eq_zero_left left
      exact (Nat.mul_eq_zero.1 zero).resolve_right (Nat.ne_of_gt bootstrapFits.slots_pos)
    obtain ⟨pool, run, empty⟩ := CacheView.alloc_exhausted sound bootstrapFits serving left
    have permitted : ledger.Permits (.request (.alloc i bytes)) := trivial
    obtain ⟨shared', ends, described, _⟩ := h.perform_refines fits accounts permitted
    rw [perform_alloc_unstored opened registered request absent run] at ends described
    rw [if_pos room, none, Nat.zero_sub, Nat.zero_mul]
    exact .of_refused ends (described.free_eq_zero empty)
  | succ left' =>
    obtain ⟨storage, bootstrap, pool, run, _, serving', _⟩ :=
      CacheView.alloc_spends sound bootstrapFits serving left
    have exhausts := h.exhausts_created fits accounts opened request absent run serving'
    rcases CacheView.exists_of_run_alloc sound run with
      ⟨base, slot, free, rest, room, _, rfl⟩ | ⟨room, page, taken, _⟩
    · have some : (view.allocators i).table.bootstrap.room ≠ [] := by
        rw [room]
        exact List.cons_ne_nil _ _
      rw [if_neg some]
      exact exhausts
    · have top := congrArg List.length (PoolView.take_ok taken).1
      rw [List.length_cons] at top
      rw [if_pos room, top, Nat.add_sub_cancel]
      exact exhausts

end SharedView.Describes

/-- The number of objects of a size that are left, from what the allocator tells about the cache
of the size and the slots that a page has for it: the slots of the cache without a live object
and those of the free pages.  A cache that is not there yet costs a page if the bootstrap cache
has no slab with room. -/
def SharedHeap.remaining (shared : SharedHeap (MeteredPool size) count) (i : Fin count)
    (stats : Option CacheStats) (slots : Nat) : Nat :=
  let pages := shared.heap.source.pool.free.toNat
  match stats with
  | some stats => stats.pages.toNat * slots - stats.live.toNat + pages * slots
  | none =>
    if 0 < (shared.allocators.get i).table.bootstrap.stats.partialSlabs then pages * slots
    else (pages - 1) * slots

namespace SharedView.Describes

variable (h : view.Describes shared)

include h

/-- What a cache tells gives the number of its free slots. -/
theorem remaining_found (fits : size.Fits maxObjectSize) (finds : view.Finds i bytes ref) :
    ∃ told, (shared.allocators.get i).stats shared.heap.store bytes = .ok (some told) ∧
      told.live.toNat ≤ told.pages.toNat * size.slots (view.cache i ref).objectSize ∧
      shared.remaining i (some told) (size.slots (view.cache i ref).objectSize) =
        (view.cache i ref).spare +
          view.pool.free.length * size.slots (view.cache i ref).objectSize := by
  obtain ⟨cache, told, described⟩ := h.stats_of_finds finds
  have whole := (h.regular_cache finds fits).card_objects_add_spare
  have pages : shared.heap.source.pool.free.toNat = view.pool.free.length := h.pool.stack.count
  have held : cache.stats.pages.toNat = (view.cache i ref).slabs.length := by
    rw [Cache.stats, described.pages, CacheView.pages, Multiset.coe_card, List.length_map]
  have live : cache.stats.live.toNat = ((view.cache i ref).objects size).card := described.live
  rw [← held, ← live] at whole
  refine ⟨cache.stats, told, by omega, ?_⟩
  rw [SharedHeap.remaining, pages]
  omega

/-- What the bootstrap cache tells gives whether it has room. -/
theorem remaining_absent (slots : Nat) : shared.remaining i none slots =
    if (view.allocators i).table.bootstrap.room = [] then (view.pool.free.length - 1) * slots
    else view.pool.free.length * slots := by
  have pages : shared.heap.source.pool.free.toNat = view.pool.free.length := h.pool.stack.count
  have listed := (h.allocators i).table.bootstrap.space.2
  rw [List.length_map] at listed
  have room : 0 < (shared.allocators.get i).table.bootstrap.stats.partialSlabs ↔
      ¬ (view.allocators i).table.bootstrap.room = [] := by
    rw [UInt64.lt_iff_toNat_lt, Cache.stats, listed, UInt64.toNat_zero, List.length_pos_iff]
  rw [SharedHeap.remaining, pages]
  simp only [room, ite_not]

end SharedView.Describes

/-- **How many requests of a size are served before the first refusal.** -/
theorem SharedHeap.Reachable.exhausts (fits : size.Fits maxObjectSize)
    (reachable : Reachable shared ledger) (unrefused : shared.heap.source.refusal = none)
    (opened : ledger.opened i = true) (small : bytes ≤ maxObjectSize) :
    ∃ cls slots stats, SizeClass.ofRequest? bytes = some cls ∧
      cls.capacity size.bytes = .ok slots ∧
      (shared.allocators.get i).stats shared.heap.store bytes = .ok stats ∧
      (∀ told, stats = some told → told.live.toNat ≤ told.pages.toNat * slots.toNat) ∧
      shared.Exhausts i bytes (shared.remaining i stats slots.toNat) := by
  obtain ⟨view, h, accounts⟩ := reachable.exists_view fits
  have serving : view.pool.refusal = none := h.pool.refusal.symm.trans unrefused
  have opened' := (accounts.opened i).symm.trans opened
  cases request : SizeClass.ofRequest? bytes with
  | none => exact absurd (SizeClass.ofRequest?_eq_none_iff.1 request) (UInt64.not_lt.2 small)
  | some cls =>
    obtain ⟨pos, le⟩ := SizeClass.size_of_request request
    have fits' : size.Fits cls.size := fits.of_le pos le
    have slots : (UInt64.ofNat (size.slots cls.size)).toNat = size.slots cls.size :=
      fits'.toNat_slots
    cases found : (view.allocators i).table.find cls with
    | some ref =>
      have finds : view.Finds i bytes ref := ⟨opened', cls, request, found⟩
      obtain ⟨told, tells, least, remaining⟩ := h.remaining_found fits finds
      have exhausts := h.exhausts_found fits accounts finds serving rfl
      have sizes : (view.cache i ref).objectSize = cls.size :=
        (TableView.find_some (h.sound i).table (h.regular i) found).2
      rw [← remaining] at exhausts
      rw [sizes] at exhausts least
      refine ⟨cls, UInt64.ofNat (size.slots cls.size), some told, rfl, fits'.capacity_eq, tells,
        ?_, ?_⟩
      · rintro _ ⟨⟩
        rw [slots]
        exact least
      · rw [slots]
        exact exhausts
    | none =>
      have tells : (shared.allocators.get i).stats shared.heap.store bytes = .ok none := by
        rw [Allocator.stats, request]
        dsimp only
        rw [(h.allocators i).table.find_eq, found]
        rfl
      have exhausts := h.exhausts_absent fits accounts opened' request found serving
      refine ⟨cls, UInt64.ofNat (size.slots cls.size), none, rfl, fits'.capacity_eq, tells,
        fun told other => ?_, ?_⟩
      · cases other
      · rw [h.remaining_absent, slots]
        exact exhausts

/-- Objects as large as a page holds one of.  Of three free pages one is spent on their cache. -/
theorem SharedHeap.Reachable.exhausts_two :
    ∃ (shared : SharedHeap (MeteredPool PageSize.default) 1) (ledger : Ledger 1),
      Reachable shared ledger ∧ shared.heap.source.refusal = none ∧
      shared.heap.source.pool.free = 3 ∧ ledger.opened 0 = true ∧ (4000 : UInt64) ≤ maxObjectSize ∧
      shared.Exhausts 0 4000 2 := by
  have fits : PageSize.default.Fits maxObjectSize := ⟨by decide, by decide +kernel⟩
  let actions : List (Action 1) := [.request (.init 0), .addMemory 0x10010 0x4000]
  have legal : ({} : Ledger 1).Legal (.fresh PageSize.default 1 {}) actions :=
    ⟨trivial, fun _ _ _ => ⟨nofun, fun _ _ _ => trivial⟩⟩
  obtain ⟨replies, shared, -, reachable, tested⟩ := Reachable.run_of_test fits (.start {}) legal
    (fun _ shared => (shared.allocators.get 0).initialized = true ∧
      shared.heap.source.refusal = none ∧ shared.heap.source.pool.free = 3 ∧
      (shared.allocators.get 0).stats shared.heap.store 4000 = .ok none ∧
      shared.remaining 0 none 1 = 2) (by decide +kernel)
  obtain ⟨initialized, unrefused, free, absent, remaining⟩ := of_decide_eq_true tested
  have opened := (reachable.initialized_eq fits 0).symm.trans initialized
  have small : (4000 : UInt64) ≤ maxObjectSize := by decide
  obtain ⟨cls, slots, stats, request, holds, tells, _, exhausts⟩ :=
    reachable.exhausts fits unrefused opened small
  have class4000 : SizeClass.ofRequest? 4000 = some ⟨4000, by decide⟩ := by decide +kernel
  have one : capacity PageSize.default.bytes 4000 = .ok 1 := by decide +kernel
  rw [class4000] at request
  cases request
  rw [absent] at tells
  cases tells
  cases holds.symm.trans one
  rw [show (1 : UInt64).toNat = 1 from rfl, remaining] at exhausts
  exact ⟨shared, _, reachable, unrefused, free, opened, small, exhausts⟩

end Serving

end SlabHeap
