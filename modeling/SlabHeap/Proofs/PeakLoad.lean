import Mathlib.Algebra.Order.Floor.Div
import Mathlib.GroupTheory.GroupAction.Ring
import SlabHeap.Proofs.Reachable
import SlabHeap.Proofs.TableUpdates

/-!
# Pages are bounded by the peak load

A cache takes a page only where every slab that it holds is full, so it holds no more pages
than its live objects ever needed.  This is about a run and not about one heap: the pages
of a cache that lost most of its objects say how many there once were.
`SharedHeap.ReachableAfter` keeps the heaps that a run went through, and
`SharedHeap.peak` is the most live objects that a cache had since it was created.

The step is `CacheView.Grows`, what an action can do to the pages of a cache.  No action
adds a page to two caches or two pages to one, but an allocation may create a cache and add
the first page to it at once; a cache that is not there counts as one without a slab
(`TableView.cacheOf`).
-/

namespace SlabHeap

/-- Where all keys are different, a search by key finds the element. -/
theorem find?_of_nodup_map {α β : Type} [DecidableEq β] {f : α → β} {elements : List α} {a : α}
    (nodup : (elements.map f).Nodup) (mem : a ∈ elements) :
    elements.find? (fun other => f other = f a) = some a := by
  cases found : elements.find? fun other => f other = f a with
  | none => simpa using List.find?_eq_none.1 found a mem
  | some other =>
    have same := List.find?_some found
    rw [decide_eq_true_eq] at same
    rw [List.inj_on_of_nodup_map nodup (List.mem_of_find?_eq_some found) mem same]

/-! ## One cache -/

namespace CacheView

variable {size : PageSize} {view view' : CacheView} {gone : Multiset UInt64}

/-- A cache without room has an object in every slot of its pages. -/
theorem card_objects_of_full (fits : size.Fits view.objectSize) (none : view.room = []) :
    (view.objects size).card = view.pages.card * size.slots view.objectSize := by
  have whole (base : UInt64) : ((SlabView.mk base []).liveSlots size view.objectSize).length =
      size.slots view.objectSize := by
    have sound : (SlabView.mk base []).Sound size view.objectSize := ⟨List.nodup_nil, nofun⟩
    exact SlabView.length_liveSlots fits sound
  simp [objects, pages, slabs, none, List.length_flatMap, Function.comp_def, whole]

/-- What an action does to the pages of a cache: it adds none, or one where no slab has room,
and an object with it. -/
structure Grows (size : PageSize) (view view' : CacheView) : Prop where
  fits : size.Fits view'.objectSize
  objectSize : view'.objectSize = view.objectSize
  pages : view'.pages.card ≤ view.pages.card ∨
    view.room = [] ∧ view'.pages.card = view.pages.card + 1 ∧
      (view'.objects size).card = (view.objects size).card + 1

theorem Grows.refl (fits : size.Fits view.objectSize) : view.Grows size view :=
  ⟨fits, rfl, .inl (le_refl _)⟩

theorem Freed.grows (freed : view.Freed size gone view') (fits : size.Fits view.objectSize) :
    view.Grows size view' :=
  ⟨freed.objectSize ▸ fits, freed.objectSize, .inl (Multiset.card_le_card freed.pages)⟩

/-- A page is asked for only where no slab has room. -/
theorem alloc_grows (fits : size.Fits view.objectSize) (sound : view.Sound size) :
    (view.alloc size).Always fun result => view.Grows size result.2 := by
  unfold alloc
  split
  · rename_i none
    rintro (error | page)
    · exact .refl fits
    · obtain ⟨slot, free, front, fresh, _⟩ := openSlab_front fits none page
      have served : (view.openSlab size page).Served size _ _ := serve_served fits front fresh
      refine ⟨served.objectSize ▸ fits, served.objectSize, .inr ⟨none, ?_, ?_⟩⟩
      · rw [served.pages]
        exact Multiset.card_cons page view.pages
      · rw [served.objects, objects_openSlab, Multiset.card_cons]
  · rename_i front rest room
    obtain ⟨base, free⟩ := front
    have listed : SlabView.mk base free ∈ view.room := room ▸ List.mem_cons_self
    cases free with
    | nil => exact absurd rfl (sound.free _ listed)
    | cons slot free =>
      have served := serve_served fits room (sound.slots _ listed)
      exact ⟨served.objectSize ▸ fits, served.objectSize,
        .inl (Nat.le_of_eq (congrArg Multiset.card served.pages))⟩

/-- Pages that a load accounts for are accounted for by the load after a step. -/
theorem Grows.pages_lt (grows : view.Grows size view') (load : Nat) {load' : Nat}
    (before : view.pages.card * size.slots view.objectSize <
      load + size.slots view.objectSize)
    (le : load ≤ load') (live : (view'.objects size).card ≤ load') :
    view'.pages.card * size.slots view'.objectSize <
      load' + size.slots view'.objectSize := by
  have fits := grows.fits
  rw [grows.objectSize] at fits ⊢
  rcases grows.pages with fewer | ⟨none, pages, objects⟩
  · have less := Nat.mul_le_mul_right (size.slots view.objectSize) fewer
    omega
  · rw [card_objects_of_full fits none] at objects
    rw [pages, Nat.succ_mul]
    omega

end CacheView

/-! ## The caches of a table -/

namespace TableView

variable {size : PageSize} {view view' base : TableView} {ref : CacheRef} {cache : CacheView}
  {rest : List CacheView} {cls : SizeClass} {storage objectSize : UInt64} {block : Block}

/-- The cache of an object size, one without a slab where there is none. -/
def cacheOf (view : TableView) (objectSize : UInt64) : CacheView :=
  (view.caches.find? (·.objectSize = objectSize)).getD { objectSize }

/-- Every cache is one that was there, or was created, and grew. -/
def Grows (size : PageSize) (view view' : TableView) : Prop :=
  ∀ cache ∈ view'.caches, (view.cacheOf cache.objectSize).Grows size cache

theorem Sound.cacheOf_eq (sound : view.Sound size) (mem : cache ∈ view.caches) :
    view.cacheOf cache.objectSize = cache := by
  rw [cacheOf, find?_of_nodup_map sound.classes mem, Option.getD_some]

theorem cacheOf_absent (absent : ∀ cache ∈ view.caches, cache.objectSize ≠ objectSize) :
    view.cacheOf objectSize = { objectSize } := by
  rw [cacheOf, List.find?_eq_none.2 fun cache mem same => absent cache mem (of_decide_eq_true same),
    Option.getD_none]

theorem cacheOf_cases (view : TableView) (objectSize : UInt64) :
    (view.cacheOf objectSize ∈ view.caches ∧ (view.cacheOf objectSize).objectSize = objectSize) ∨
      (∀ cache ∈ view.caches, cache.objectSize ≠ objectSize) ∧
        view.cacheOf objectSize = { objectSize } := by
  cases found : view.caches.find? (·.objectSize = objectSize) with
  | some cache =>
    have test := List.find?_some found
    rw [decide_eq_true_eq] at test
    rw [cacheOf, found, Option.getD_some]
    exact .inl ⟨List.mem_of_find?_eq_some found, test⟩
  | none =>
    have absent : ∀ cache ∈ view.caches, cache.objectSize ≠ objectSize := by
      simpa using List.find?_eq_none.1 found
    exact .inr ⟨absent, cacheOf_absent absent⟩

/-! ### Operations -/

theorem Grows.refl (sound : view.Sound size)
    (fits : ∀ cache ∈ view.caches, size.Fits cache.objectSize) : view.Grows size view := by
  intro cache mem
  rw [sound.cacheOf_eq mem]
  exact .refl (fits cache mem)

/-- A cache that was as before the step grows in it. -/
theorem Grows.setCache (grows : base.Grows size view) (focus : view.Focus ref rest)
    (same : base.cacheOf (view.cache ref).objectSize = view.cache ref)
    (own : (view.cache ref).Grows size cache) : base.Grows size (view.setCache ref cache) := by
  intro other mem
  cases (focus.after cache).mem_iff.1 mem with
  | head =>
    rw [own.objectSize, same]
    exact own
  | tail _ mem => exact grows other (focus.mem_of_rest mem)

variable (sound : view.Sound size) (fits : ∀ cache ∈ view.caches, size.Fits cache.objectSize)

include sound fits

/-- Creating a cache adds one without a slab. -/
theorem Grows.addCache (room : size.Fits cls.size)
    (absent : ∀ cache ∈ view.caches, cache.objectSize ≠ cls.size)
    (own : view.bootstrap.Grows size cache) :
    view.Grows size (view.addCache cls storage cache) := by
  have known : view.cacheOf view.bootstrap.objectSize = view.bootstrap :=
    sound.cacheOf_eq List.mem_cons_self
  intro other mem
  cases mem with
  | head =>
    rw [TableView.addCache, own.objectSize, known]
    exact own
  | tail _ mem =>
    cases mem with
    | head =>
      dsimp only
      rw [cacheOf_absent absent]
      exact .refl room
    | tail _ mem => exact refl sound fits other (.tail _ mem)

/-- Finding or creating leaves the cache that was found as it was, or empty. -/
theorem findOrCreate_grows (regular : view.Regular size) (room : size.Fits cls.size) :
    (view.findOrCreate size cls).Always fun answer => view.Grows size answer.2 ∧
      ∀ ref, answer.1 = .ok ref →
        view.cacheOf (answer.2.cache ref).objectSize = answer.2.cache ref := by
  have same := Grows.refl sound fits
  have own : view.bootstrap ∈ view.caches := List.mem_cons_self
  have grows := CacheView.alloc_grows (fits _ own) (sound.caches _ own)
  refine (@findOrCreate_always size view cls (fun _ => view.bootstrap.Grows size) grows).mono ?_
  rintro answer (⟨ref, found, rfl⟩ | ⟨missing, ⟨error, rfl⟩ |
    ⟨storage, bootstrap, registered, rfl, grows⟩⟩)
  · refine ⟨same, ?_⟩
    rintro _ ⟨⟩
    obtain ⟨rest, focus⟩ :=
      exists_focus (sound.nodup_addresses regular) (find_some sound regular found).1
    exact sound.cacheOf_eq focus.mem_caches
  · exact ⟨same, nofun⟩
  · have absent := find_none missing registered sound.bootstrapSize
    refine ⟨Grows.addCache sound fits room absent grows, ?_⟩
    rintro _ ⟨⟩
    rw [cache_addCache_self, cacheOf_absent absent]

/-- Freeing an object of a user adds no page. -/
theorem free_grows (regular : view.Regular size) (registered : view.registered = true)
    (mem : block ∈ view.users size) :
    (view.free size block.address).Always (view.Grows size) := by
  obtain ⟨ref, has, _, held, object, same⟩ := sound.free_eq regular registered mem
  obtain ⟨rest, focus⟩ := exists_focus (sound.nodup_addresses regular) has
  have own := sound.regular_of_mem regular held (CacheView.slabs_ne_nil_of_object object)
  rw [same]
  refine (freeTo_always own (sound.caches _ held) object).mono ?_
  rintro _ ⟨cache, rfl, freed⟩
  exact (Grows.refl sound fits).setCache focus (sound.cacheOf_eq held)
    (freed.grows (fits _ held))

/-- Dropping all caches adds no page to the bootstrap cache. -/
theorem reset_grows (regular : view.Regular size) :
    (view.reset size).Always (view.Grows size) := by
  have own : view.bootstrap ∈ view.caches := List.mem_cons_self
  refine (reset_always sound regular).mono ?_
  rintro _ ⟨bootstrap, rfl, freed⟩ cache mem
  rw [List.mem_singleton.1 mem, freed.objectSize, sound.cacheOf_eq own]
  exact freed.grows (fits _ own)

end TableView

/-- Serving an object grows the cache of its class, and the bootstrap cache if it has to. -/
theorem Allocator.allocOf_grows {size : PageSize} {σ : Type} [PageSource σ]
    {model : PageModel size σ} {heap : Heap σ} {source : model.View} {view : AllocatorView}
    {allocator : Allocator} {cls : SizeClass} {others : Multiset UInt64}
    (sound : view.Sound size) (h : view.Describes size allocator heap.store heap.memory)
    (known : model.Describes source (view.table.pages + others) heap.source heap.memory)
    (fits : ∀ cache ∈ view.table.caches, size.Fits cache.objectSize)
    (small : size.Fits bootstrapClass.size) (room : size.Fits cls.size) :
    Follows model (allocator.allocOf size cls) (view.allocOf size cls) heap source
      fun _ answer _ _ => view.table.Grows size answer.2.table := by
  have regular := TableView.Regular.of_source known
  unfold allocOf AllocatorView.allocOf TableView.alloc
  rw [bind_assoc]
  refine ((CacheTable.provide_follows sound.table h.table known small).always
    (TableView.findOrCreate_grows sound.table fits regular room)).bind ?_
  rintro _ ⟨found, view₁⟩ heap₁ source₁ ⟨⟨table, rfl, served, _, has⟩, grows, same⟩
  cases found with
  | error error => exact .step (HeapM.report_ok _) (.done grows)
  | ok ref =>
    obtain ⟨present, sizes⟩ := has ref rfl
    dsimp only at sizes same grows
    have regular₁ := TableView.Regular.of_source served.source
    obtain ⟨rest, focus⟩ :=
      TableView.exists_focus (served.sound.nodup_addresses regular₁) present
    have fitting := sizes.symm ▸ room
    have own := CacheView.alloc_grows fitting (served.sound.caches _ focus.mem_caches)
    refine ((CacheTable.allocFrom_follows served.sound served.describes served.source present
      fitting).always (@TableView.allocFrom_always size view₁ ref
        (fun _ => (view₁.cache ref).Grows size) own)).bind ?_
    rintro _ ⟨answer, view₂⟩ heap₂ source₂ ⟨⟨table', rfl, _, _⟩, cache, rfl, own⟩
    have both := grows.setCache focus (same ref rfl) own
    cases answer with
    | error error => exact .done both
    | ok object => exact .done both

/-! ## Shared heaps -/

variable {size : PageSize} {count : Nat} {view : SharedView count}
  {shared shared' : SharedHeap (MeteredPool size) count} {ledger : Ledger count}
  {action : Action count} {i : Fin count}

namespace SharedView

/-- Objects of every cache can be served from a page. -/
def Fits (size : PageSize) (view : SharedView count) : Prop :=
  ∀ i, ∀ cache ∈ (view.allocators i).table.caches, size.Fits cache.objectSize

/-- What an action does to the caches of all allocators. -/
def Grows (size : PageSize) (view view' : SharedView count) : Prop :=
  ∀ i, (view.allocators i).table.Grows size (view'.allocators i).table

variable (h : view.Describes shared) (room : view.Fits size)

include h room

theorem Describes.grows_refl : view.Grows size view :=
  fun i => .refl (h.sound i).table (room i)

/-- One allocator changes. -/
theorem Describes.grows_update {allocator : AllocatorView} {pool : PoolView}
    {lost : List CacheView}
    (own : (view.allocators i).table.Grows size allocator.table) :
    view.Grows size
      { pool, allocators := Function.update view.allocators i allocator, lost } := by
  intro j
  by_cases same : j = i
  · subst same
    simp only [Function.update_self]
    exact own
  · simp only [Function.update_of_ne same]
    exact h.grows_refl room j

theorem Describes.alloc_grows (fits : size.Fits maxObjectSize) (i : Fin count) (bytes : UInt64) :
    (view.allocators i).table.Grows size
      (((view.allocators i).alloc size bytes).run view.pool).1.2.table := by
  have same := h.grows_refl room i
  unfold AllocatorView.alloc
  split
  · split
    · exact same
    · rename_i cls request
      obtain ⟨pos, le⟩ := SizeClass.size_of_request request
      have known : (MeteredPool.model fits.wide).Describes view.pool _ _ _ := h.source i
      obtain ⟨_, _, _, grows⟩ := (Allocator.allocOf_grows (h.sound i) (h.allocators i) known
        (room i) (fits.of_le (by decide) (by decide)) (fits.of_le pos le)).run
      exact grows
  · exact same

/-- Every permitted action adds pages to full caches only. -/
theorem Describes.perform_grows (fits : size.Fits maxObjectSize)
    (accounts : ledger.Accounts size view) (permitted : ledger.Permits action) :
    view.Grows size (view.perform size action).2 := by
  have same := h.grows_refl room
  cases action with
  | request request =>
    cases request with
    | init i =>
      refine h.grows_update room ?_
      unfold AllocatorView.init
      split <;> exact same i
    | teardown i =>
      refine h.grows_update room ?_
      unfold AllocatorView.teardown
      split
      · rw [Plan.run_bind]
        exact (TableView.reset_grows (h.sound i).table (room i) (h.regular i)).run view.pool
      · exact same i
    | alloc i bytes => exact h.grows_update room (h.alloc_grows room fits i bytes)
    | free i object =>
      refine h.grows_update room ?_
      cases opened : (view.allocators i).initialized with
      | false =>
        rw [AllocatorView.free, opened, if_neg Bool.false_ne_true]
        exact same i
      | true =>
        obtain ⟨block, rfl, mem⟩ := accounts.exists_user permitted opened
        rw [AllocatorView.free, opened, if_pos rfl, Plan.run_bind]
        exact (TableView.free_grows (h.sound i).table (room i) (h.regular i)
          ((h.sound i).registered.trans opened) mem).run view.pool
    | write address values => exact same
  | addMemory start length => exact same
  | refuse refusal => exact same

end SharedView

/-! ## Runs with their history -/

/-- The cache of an object size, the bootstrap cache also while it is not registered. -/
def CacheTable.cacheOf? (table : CacheTable) (store : CacheStore) (objectSize : UInt64) :
    Option Cache :=
  match table.storages store with
  | .ok storages => (table.allCaches store storages).find? (·.objectSize = objectSize)
  | .error _ => none

namespace SharedHeap

/-- The cache of an object size of one of the allocators. -/
def cacheOf? {σ : Type} (shared : SharedHeap σ count) (i : Fin count) (objectSize : UInt64) :
    Option Cache :=
  (shared.allocators.get i).table.cacheOf? shared.heap.store objectSize

/-- The cache of an object size, one without a slab where there is none. -/
def cacheOf {σ : Type} (shared : SharedHeap σ count) (i : Fin count) (objectSize : UInt64) :
    Cache :=
  (shared.cacheOf? i objectSize).getD { objectSize }

/-- The most live objects that the cache of an object size had since it was created, in heaps
given from the latest to the first. -/
def peak {σ : Type} (i : Fin count) (objectSize : UInt64) : List (SharedHeap σ count) → Nat
  | [] => 0
  | shared :: earlier =>
    match shared.cacheOf? i objectSize with
    | some cache => max cache.live.toNat (peak i objectSize earlier)
    | none => 0

/-- What permitted actions lead to, after the heaps before it, the latest first. -/
inductive ReachableAfter : SharedHeap (MeteredPool size) count →
    List (SharedHeap (MeteredPool size) count) → Ledger count → Prop
  | start (memory : Memory) : ReachableAfter (.fresh size count memory) [] {}
  | step {shared shared' : SharedHeap (MeteredPool size) count}
      {earlier : List (SharedHeap (MeteredPool size) count)} {ledger : Ledger count}
      {action : Action count} {reply : Reply} :
    ReachableAfter shared earlier ledger → ledger.Permits action →
      SharedHeap.perform action shared = .ok reply shared' →
      ReachableAfter shared' (shared :: earlier) (ledger.note action reply)

/-- Every reachable heap is reachable after some others. -/
theorem Reachable.exists_earlier (reachable : Reachable shared ledger) :
    ∃ earlier, ReachableAfter shared earlier ledger := by
  induction reachable with
  | start memory => exact ⟨[], .start memory⟩
  | step _ permitted ends ih =>
    obtain ⟨earlier, after⟩ := ih
    exact ⟨_, after.step permitted ends⟩

end SharedHeap

/-- A cache got a page: no slab had room, every slot of its pages was taken, and the new page
is what its objects need now. -/
structure Cache.AddsPage (slots : UInt64) (cache cache' : Cache) : Prop where
  unlisted : cache.space.head = none
  full : cache.pages.toNat * slots.toNat = cache.live.toNat
  pages : cache'.pages.toNat = cache.pages.toNat + 1
  live : cache'.live.toNat = cache.live.toNat + 1
  exact : cache'.pages.toNat = cache'.live.toNat ⌈/⌉ slots.toNat

namespace TableView.Describes

variable {view : TableView} {table : CacheTable} {store : CacheStore} {memory : Memory}
  {cacheView : CacheView} (h : view.Describes size table store memory)

include h

/-- A cache of the table is found by its size. -/
theorem cacheOf?_eq (sound : view.Sound size) {cache : Cache}
    (mem : cache ∈ table.allCaches store view.order) :
    table.cacheOf? store cache.objectSize = some cache := by
  rw [CacheTable.cacheOf?, h.storages_eq]
  exact find?_of_nodup_map (h.sizes_perm.nodup_iff.2 sound.classes) mem

/-- Where the view has no cache of a size, the table has none. -/
theorem cacheOf?_absent {objectSize : UInt64}
    (absent : ∀ cache ∈ view.caches, cache.objectSize ≠ objectSize) :
    table.cacheOf? store objectSize = none := by
  rw [CacheTable.cacheOf?, h.storages_eq]
  refine List.find?_eq_none.2 fun cache mem same => ?_
  obtain ⟨cacheView, held, described⟩ := h.exists_described mem
  exact absent cacheView held (described.objectSize.symm.trans (of_decide_eq_true same))

theorem exists_cacheOf? (sound : view.Sound size) (mem : cacheView ∈ view.caches) :
    ∃ cache, table.cacheOf? store cacheView.objectSize = some cache ∧
      cacheView.Describes size cache memory := by
  have listed := h.sizes_perm.mem_iff.2 (List.mem_map_of_mem mem)
  obtain ⟨cache, held, sizes⟩ := List.mem_map.1 listed
  obtain ⟨other, mem', described⟩ := h.exists_described held
  have same := sound.eq_of_objectSize mem mem' (sizes.symm.trans described.objectSize)
  rw [← sizes]
  exact ⟨cache, h.cacheOf?_eq sound held, same ▸ described⟩

end TableView.Describes

/-- The caches of a size, in memory and in the view. -/
theorem SharedView.Describes.cacheOf (h : view.Describes shared) (i : Fin count)
    (objectSize : UInt64) : ((view.allocators i).table.cacheOf objectSize).Describes size
      (shared.cacheOf i objectSize) shared.heap.memory := by
  have table := (h.allocators i).table
  rcases (view.allocators i).table.cacheOf_cases objectSize with
    ⟨mem, sizes⟩ | ⟨absent, same⟩
  · obtain ⟨cache, found, described⟩ := table.exists_cacheOf? (h.sound i).table mem
    rw [sizes] at found
    rw [SharedHeap.cacheOf, SharedHeap.cacheOf?, found]
    exact described
  · rw [same, SharedHeap.cacheOf, SharedHeap.cacheOf?, table.cacheOf?_absent absent]
    exact .fresh size objectSize _

/-- The pages of every cache are accounted for by its peak. -/
structure SharedView.WithinPeaks (view : SharedView count)
    (history : List (SharedHeap (MeteredPool size) count)) : Prop where
  fits : view.Fits size
  pages : ∀ i, ∀ cache ∈ (view.allocators i).table.caches,
    cache.pages.card * size.slots cache.objectSize <
      SharedHeap.peak i cache.objectSize history + size.slots cache.objectSize

/-- A step of a run keeps all caches within their peaks. -/
theorem SharedView.WithinPeaks.step {view' : SharedView count}
    {earlier : List (SharedHeap (MeteredPool size) count)} (within : view.WithinPeaks earlier)
    (grows : view.Grows size view') (h : view'.Describes shared) :
    view'.WithinPeaks (shared :: earlier) := by
  refine ⟨fun i cache mem => (grows i cache mem).fits, fun i cache mem => ?_⟩
  obtain ⟨held, found, described⟩ :=
    (h.allocators i).table.exists_cacheOf? (h.sound i).table mem
  have load : SharedHeap.peak i cache.objectSize (shared :: earlier) =
      max held.live.toNat (SharedHeap.peak i cache.objectSize earlier) := by
    rw [SharedHeap.peak, SharedHeap.cacheOf?, found]
  rw [load, described.live]
  refine (grows i cache mem).pages_lt (SharedHeap.peak i cache.objectSize earlier) ?_
    (le_max_right _ _) (le_max_left _ _)
  rcases (view.allocators i).table.cacheOf_cases cache.objectSize with
    ⟨mem', sizes⟩ | ⟨_, same⟩
  · have before := within.pages i _ mem'
    rw [sizes] at before
    rw [sizes]
    exact before
  · have pos := (grows i cache mem).fits.slots_pos
    rw [same]
    simp [CacheView.pages, CacheView.slabs, pos]

/-- What a cache gets with a page. -/
theorem CacheView.Grows.addsPage {view view' : CacheView} {cache cache' : Cache}
    {memory memory' : Memory} (grows : view.Grows size view')
    (h : view.Describes size cache memory) (h' : view'.Describes size cache' memory')
    (more : cache.pages < cache'.pages) :
    cache.AddsPage (UInt64.ofNat (size.slots view'.objectSize)) cache' := by
  have slots := grows.fits.toNat_slots
  have pos : 0 < (UInt64.ofNat (size.slots view'.objectSize)).toNat := by
    rw [slots]
    exact grows.fits.slots_pos
  rw [UInt64.lt_iff_toNat_lt, h.pages, h'.pages] at more
  rcases grows.pages with fewer | ⟨none, pages, live⟩
  · omega
  · have full := card_objects_of_full (grows.objectSize ▸ grows.fits) none
    rw [← grows.objectSize] at full
    rw [← h.pages, ← h'.pages] at pages
    rw [← h.live, ← h'.live] at live
    rw [← h.pages, ← h.live, ← slots] at full
    refine ⟨?_, full.symm, pages, live, ?_⟩
    · have first : cache.space.head = (view.room.map SlabView.slab).head? := h.space.1.head?_eq
      rw [first, none]
      rfl
    · have whole : cache'.live.toNat + (UInt64.ofNat (size.slots view'.objectSize)).toNat - 1 =
          cache'.pages.toNat * (UInt64.ofNat (size.slots view'.objectSize)).toNat := by
        rw [live, pages, full, Nat.succ_mul]
        omega
      rw [Nat.ceilDiv_eq_add_pred_div, whole, Nat.mul_div_cancel _ pos]

/-- A view of a run: the caches are within their peaks, and the last step grew them. -/
theorem SharedHeap.ReachableAfter.exists_view (fits : size.Fits maxObjectSize)
    {earlier : List (SharedHeap (MeteredPool size) count)}
    (reachable : ReachableAfter shared earlier ledger) :
    ∃ view : SharedView count, view.Describes shared ∧ ledger.Accounts size view ∧
      view.WithinPeaks (shared :: earlier) ∧
      ∀ before ∈ earlier.head?, ∃ view₀ : SharedView count,
        view₀.Describes before ∧ view₀.Grows size view := by
  induction reachable with
  | start memory =>
    have small : size.Fits bootstrapClass.size := fits.of_le (by decide) (by decide)
    refine ⟨{}, .fresh size count memory, .start size count, ⟨fun i cache mem => ?_,
      fun i cache mem => ?_⟩, nofun⟩
    · rw [List.mem_singleton.1 mem]
      exact small
    · have pos := small.slots_pos
      rw [List.mem_singleton.1 mem]
      simp [CacheView.pages, CacheView.slabs, pos]
  | step _ permitted ends ih =>
    obtain ⟨view, h, accounts, within, _⟩ := ih
    obtain ⟨shared', ends', described, accounts'⟩ := h.perform_refines fits accounts permitted
    rw [ends] at ends'
    cases ends'
    have grows := h.perform_grows within.fits fits accounts permitted
    refine ⟨_, described, accounts', within.step grows described, ?_⟩
    rintro _ ⟨⟩
    exact ⟨view, h, grows⟩

/-- **Pages are bounded by the peak load.**  Every cache holds at most as many pages as its
peak needs, and the last action of a run added a page only to a cache all of whose slots were
taken. -/
theorem SharedHeap.ReachableAfter.pages_le_peak (fits : size.Fits maxObjectSize)
    {earlier : List (SharedHeap (MeteredPool size) count)}
    (reachable : ReachableAfter shared earlier ledger) (i : Fin count) :
    ∃ storages, (shared.allocators.get i).table.storages shared.heap.store = .ok storages ∧
      ∀ cache ∈ (shared.allocators.get i).table.allCaches shared.heap.store storages,
        shared.cacheOf? i cache.objectSize = some cache ∧
        ∃ slots, capacity size.bytes cache.objectSize = .ok slots ∧ 0 < slots ∧
          cache.pages.toNat ≤
            peak i cache.objectSize (shared :: earlier) ⌈/⌉ slots.toNat ∧
          ∀ before ∈ earlier.head?, (before.cacheOf i cache.objectSize).pages < cache.pages →
            (before.cacheOf i cache.objectSize).AddsPage slots cache := by
  obtain ⟨view, h, accounts, within, last⟩ := reachable.exists_view fits
  have table := (h.allocators i).table
  refine ⟨_, table.storages_eq, fun cache mem => ⟨table.cacheOf?_eq (h.sound i).table mem, ?_⟩⟩
  obtain ⟨cacheView, held, described⟩ := table.exists_described mem
  have room := within.fits i cacheView held
  have slots := room.toNat_slots
  have pos := room.slots_pos
  have bound := within.pages i cacheView held
  rw [described.objectSize]
  refine ⟨_, room.capacity_eq, ?_, ?_, fun before first more => ?_⟩
  · rw [UInt64.lt_iff_toNat_lt, slots]
    exact pos
  · rw [slots, described.pages, Nat.ceilDiv_eq_add_pred_div, Nat.le_div_iff_mul_le pos]
    omega
  · obtain ⟨view₀, h₀, grows⟩ := last before first
    exact (grows i cacheView held).addsPage (h₀.cacheOf i _) described more

/-- Two objects fill a page, and the third one takes another. -/
theorem SharedHeap.ReachableAfter.pages_le_peak_third :
    ∃ (shared shared' : SharedHeap (MeteredPool PageSize.default) 1)
      (earlier : List (SharedHeap (MeteredPool PageSize.default) 1)) (ledger : Ledger 1)
      (cache cache' : Cache), ReachableAfter shared' (shared :: earlier) ledger ∧
      shared.cacheOf? 0 2000 = some cache ∧ shared'.cacheOf? 0 2000 = some cache' ∧
      cache.pages = 1 ∧ cache'.pages = 2 ∧ capacity PageSize.default.bytes 2000 = .ok 2 ∧
      cache'.pages.toNat ≤ peak 0 2000 (shared' :: shared :: earlier) ⌈/⌉ 2 ∧
      cache.AddsPage 2 cache' := by
  have fits : PageSize.default.Fits maxObjectSize := ⟨by decide, by decide +kernel⟩
  have room : capacity PageSize.default.bytes 2000 = .ok 2 := by decide +kernel
  let actions : List (Action 1) := [.request (.init 0), .addMemory 0x10010 0x8000,
    .request (.alloc 0 2000), .request (.alloc 0 2000)]
  have legal : ({} : Ledger 1).Legal (.fresh PageSize.default 1 {}) actions :=
    ⟨trivial, fun _ _ _ => ⟨nofun, fun _ _ _ => ⟨trivial, fun _ _ _ => ⟨trivial, fun _ _ _ =>
      trivial⟩⟩⟩⟩
  obtain ⟨replies, shared, reply, shared', -, reachable, ends, tested⟩ :=
    Reachable.step_of_test fits (.start {}) legal (.request (.alloc 0 2000))
      (fun _ shared _ shared' => (shared.cacheOf? 0 2000).any (·.pages = 1) ∧
        (shared'.cacheOf? 0 2000).any fun cache => cache.pages = 2 ∧ cache.objectSize = 2000)
      (by decide +kernel)
  obtain ⟨earlier, after⟩ := reachable.exists_earlier
  obtain ⟨tested, tested'⟩ := of_decide_eq_true tested
  obtain ⟨cache, before, one⟩ := (Option.any_eq_true _ _).1 tested
  obtain ⟨cache', found, grown⟩ := (Option.any_eq_true _ _).1 tested'
  have one : cache.pages = 1 := of_decide_eq_true one
  obtain ⟨two, sizes⟩ := of_decide_eq_true grown
  have after' := after.step (show Ledger.Permits _ (.request (.alloc 0 2000)) from trivial) ends
  obtain ⟨storages, listed, all⟩ := after'.pages_le_peak fits 0
  have mem : cache' ∈ (shared'.allocators.get 0).table.allCaches shared'.heap.store storages := by
    rw [cacheOf?, CacheTable.cacheOf?, listed] at found
    exact List.mem_of_find?_eq_some found
  obtain ⟨_, slots, answer, _, bounded, added⟩ := all cache' mem
  rw [sizes] at answer bounded added
  cases room.symm.trans answer
  have held : shared.cacheOf 0 2000 = cache := by rw [SharedHeap.cacheOf, before]; rfl
  have page := added shared rfl
  rw [held, one, two] at page
  exact ⟨shared, shared', earlier, _, cache, cache', after', before, found, one, two, room,
    bounded, page (by decide)⟩

end SlabHeap
