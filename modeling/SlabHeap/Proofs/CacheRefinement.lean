import SlabHeap.Proofs.CacheMemory

/-!
# Caches refine lists of stacks

`Cache.alloc_follows` and `Cache.free_follows` say that the operations of a cache
carry out the plans of its view on any page source.  What they leave alone is
collected in `CacheView.Carried`: all pages that are not the cache's, and of its own
pages what stands behind the tables.
-/

namespace SlabHeap

/-! ## Opening a slab -/

namespace Cache

variable {size : PageSize} {σ : Type} [PageSource σ] {heap : Heap σ} {cache : Cache}
  {source : σ} {memory memory₁ memory₂ : Memory}

theorem openSlab_of_head {slab : Slab} (first : cache.space.head = some slab) :
    cache.openSlab size heap = .ok (.ok slab, cache) heap := by
  unfold openSlab
  rw [first]
  rfl

theorem openSlab_refused (empty : cache.space.head = none) {error : AllocError}
    (taken : PageSource.takePage heap.source heap.memory = .ok (.error error, source, memory)) :
    cache.openSlab size heap = .ok (.error error, cache) { heap with
      source, memory, journal := .noPageForSlab cache.objectSize error :: heap.journal } := by
  unfold openSlab
  rw [empty]
  dsimp only
  rw [bind_ok (HeapM.takePage_ok taken)]
  rfl

theorem openSlab_carved (empty : cache.space.head = none) {page slots pages : UInt64}
    {space : SpaceList}
    (taken : PageSource.takePage heap.source heap.memory = .ok (.ok page, source, memory))
    (carved : (Slab.mk page).carve memory cache.objectSize size.bytes = .ok (slots, memory₁))
    (pushed : cache.space.pushFront memory₁ ⟨page⟩ = .ok (space, memory₂))
    (counted : checkedAdd cache.pages 1 = .ok pages) :
    cache.openSlab size heap = .ok (.ok ⟨page⟩, { cache with space, pages })
      { heap with source, memory := memory₂ } := by
  unfold openSlab
  rw [empty]
  dsimp only
  rw [bind_ok (HeapM.takePage_ok taken)]
  dsimp only
  rw [bind_ok (HeapM.inMemory_ok carved), bind_ok (HeapM.inMemory_ok pushed),
    bind_ok (HeapM.check_of_ok counted)]
  rfl

theorem alloc_of_refused {heap' : Heap σ} {cache' : Cache} {error : AllocError}
    (refused : cache.openSlab size heap = .ok (.error error, cache') heap') :
    cache.alloc size heap = .ok (.error error, cache') heap' := by
  unfold alloc
  rw [bind_ok refused]
  rfl

end Cache

/-! ## Serving and freeing -/

namespace CacheView

variable {size : PageSize} {σ : Type} [PageSource σ] {model : PageModel size σ}
  {heap heap' heap₁ : Heap σ} {source : model.View} {view view' : CacheView} {cache cache₁ : Cache}
  {memory' : Memory} {rest : List SlabView} {free : List UInt64} {base slot : UInt64}
  {others : Multiset UInt64}

/-- The cache and the page source after an operation, and what it left alone. -/
structure Carried (model : PageModel size σ) (others : Multiset UInt64) (heap : Heap σ)
    (view : CacheView) (heap' : Heap σ) (source' : model.View) (view' : CacheView)
    (cache' : Cache) : Prop where
  describes : view'.Describes size cache' heap'.memory
  source : model.Describes source' (view'.pages + others) heap'.source heap'.memory
  frame : Set.EqOn heap'.memory.byte heap.memory.byte
    (size.covered others ∪ view.bodies size ∩ view'.bodies size)
  store : heap'.store = heap.store

theorem Carried.refl (h : view.Describes size cache heap.memory)
    (known : model.Describes source (view.pages + others) heap.source heap.memory) :
    Carried model others heap view heap source view cache :=
  ⟨h, known, fun _ _ => rfl, rfl⟩

theorem Carried.trans {heap'' : Heap σ} {source' source'' : model.View} {view'' : CacheView}
    {cache' cache'' : Cache}
    (first : Carried model others heap view heap' source' view' cache')
    (second : Carried model others heap' view' heap'' source'' view'' cache'')
    (between : view.bodies size ∩ view''.bodies size ⊆ view'.bodies size) :
    Carried model others heap view heap'' source'' view'' cache'' := by
  refine ⟨second.describes, second.source, fun address mem => ?_,
    second.store.trans first.store⟩
  have inner : address ∈ size.covered others ∪ view'.bodies size ∩ view''.bodies size :=
    mem.imp_right fun both => ⟨between both, both.2⟩
  have outer : address ∈ size.covered others ∪ view.bodies size ∩ view'.bodies size :=
    mem.imp_right fun both => ⟨both.1, between both⟩
  exact (second.frame inner).trans (first.frame outer)

/-- A cache that keeps its pages and writes to its notes only. -/
theorem Carried.of_notes (regular : view.Regular size)
    (known : model.Describes source (view.pages + others) heap.source heap.memory)
    (described : view'.Describes size cache memory')
    (sizes : view'.objectSize = view.objectSize) (pages : view'.pages = view.pages)
    (same : Set.EqOn memory'.byte heap.memory.byte (view.notes size)ᶜ) :
    Carried model others heap view { heap with memory := memory' } source view' cache := by
  refine ⟨described, ?_, same.mono ?_, rfl⟩
  · rw [pages]
    refine model.congr known (same.mono (Set.compl_subset_compl.2 ?_))
    exact fun address noted => Multiset.mem_add.2 (.inl (regular.notes_subset_covered noted))
  · rw [bodies_congr sizes pages]
    exact (Set.union_subset_union_right _ Set.inter_subset_left).trans
      (regular.subset_compl_notes (model.nodup known))

/-- The page source acts first, and leaves the pages in use alone. -/
theorem Carried.of_source {opened : CacheView}
    (carried : Carried model others heap₁ opened heap' source view' cache)
    (same : Set.EqOn heap₁.memory.byte heap.memory.byte (size.covered (view.pages + others)))
    (store : heap₁.store = heap.store) (bodies : view.bodies size ⊆ opened.bodies size) :
    Carried model others heap view heap' source view' cache := by
  refine ⟨carried.describes, carried.source, fun address mem => ?_, carried.store.trans store⟩
  have inner : address ∈ size.covered others ∪ opened.bodies size ∩ view'.bodies size :=
    mem.imp_right fun both => ⟨bodies both.1, both.2⟩
  have outer : address ∈ size.covered (view.pages + others) := by
    rcases mem with other | body
    · exact Multiset.mem_add.2 (.inr other)
    · exact Multiset.mem_add.2 (.inl body.1.1)
  exact (carried.frame inner).trans (same outer)

/-- On pages from a page source a sound cache is regular. -/
theorem Sound.regular_of_source (sound : view.Sound size) (fits : size.Fits view.objectSize)
    (known : model.Describes source (view.pages + others) heap.source heap.memory) :
    view.Regular size :=
  sound.regular fits (Multiset.nodup_add.1 (model.nodup known)).1
    (fun page held => model.aligned known page (Multiset.mem_add.2 (.inl held)))
    (fun page held => model.nonzero known page (Multiset.mem_add.2 (.inl held)))

omit [PageSource σ] in
/-- The slab in front leaves the list if it is full. -/
theorem Holds.retires (heap : Heap σ) (object live : UInt64)
    (h : view.Holds size cache heap.memory) (regular : view.Regular size)
    (front : view.room = ⟨base, free⟩ :: rest) :
    ∃ space memory',
      (if (Slab.mk base).isFull heap.memory then do
          let (_, space) ← HeapM.inMemory cache.space.popFront
          return (.ok object, { cache with space, live })
        else return (.ok object, { cache with live }) :
          HeapM σ (Except AllocError UInt64 × Cache)) heap =
        .ok (.ok object, { cache with space, live }) { heap with memory := memory' } ∧
      view.retire.Holds size { cache with space } memory' ∧
      Set.EqOn memory'.byte heap.memory.byte (view.notes size)ᶜ := by
  have described := h.slabs _ (List.mem_append_left _ (front ▸ List.mem_cons_self))
  cases free with
  | nil =>
    have full : (Slab.mk base).isFull heap.memory = true := described.isFull_iff.2 rfl
    obtain ⟨space, memory', popped, retired, same⟩ := h.retire regular front
    refine ⟨space, memory', ?_, retired, same⟩
    rw [if_pos full, bind_ok (HeapM.inMemory_ok popped)]
    rfl
  | cons slot free =>
    have some : ¬ (Slab.mk base).isFull heap.memory = true := fun full =>
      List.cons_ne_nil _ _ (described.isFull_iff.1 full)
    have kept : view.retire = view := by rw [CacheView.retire, front]
    refine ⟨cache.space, heap.memory, ?_, ?_, fun _ _ => rfl⟩
    · rw [if_neg some]
      rfl
    · rw [kept]
      exact h

/-- With a slab in front that has a free slot, the slot is served. -/
theorem Holds.serve (opened : cache.openSlab size heap = .ok (.ok ⟨base⟩, cache₁) heap₁)
    (h : view.Holds size cache₁ heap₁.memory) (regular : view.Regular size)
    (live : cache₁.live.toNat = (view.objects size).card)
    (front : view.room = ⟨base, slot :: free⟩ :: rest) :
    ∃ cache' memory',
      cache.alloc size heap = .ok (.ok (view.serve size).1, cache')
        { heap₁ with memory := memory' } ∧
      (view.serve size).2.Describes size cache' memory' ∧
      Set.EqOn memory'.byte heap₁.memory.byte (view.notes size)ᶜ := by
  have held : SlabView.mk base (slot :: free) ∈ view.slabs :=
    List.mem_append_left _ (front ▸ List.mem_cons_self)
  have served := serve_served regular.fits front (regular.slabs _ held)
  have result : view.serve size = (size.slotAddress view.objectSize base slot,
      ({ view with room := ⟨base, free⟩ :: rest } : CacheView).retire) := by
    rw [CacheView.serve, front]
  obtain ⟨memory₂, taken, holds, same⟩ := h.take regular front
  obtain ⟨regular₂, pages⟩ := regular.take front
  obtain ⟨space, memory₃, ends, retired, same'⟩ :=
    holds.retires { heap₁ with memory := memory₂ } (size.slotAddress view.objectSize base slot)
      (cache₁.live + 1) regular₂ rfl
  -- the counter does not wrap, as all objects have different addresses
  have few : ((view.serve size).2.objects size).card < 2 ^ 64 := by
    rw [result]
    exact (regular₂.congr retire_objectSize slabs_retire).card_objects_lt
  rw [served.objects, Multiset.card_cons, ← live] at few
  obtain ⟨counted, more⟩ := checkedAdd_one few
  refine ⟨{ cache₁ with space, live := cache₁.live + 1 }, memory₃, ?_, ⟨?_, ?_⟩, ?_⟩
  · unfold Cache.alloc
    rw [bind_ok opened]
    dsimp only
    rw [bind_ok (HeapM.inMemory_ok taken)]
    dsimp only
    rw [bind_ok (HeapM.check_of_ok counted), bind_ok HeapM.memory_ok, result]
    exact ends
  · rw [result]
    exact ⟨retired.objectSize, retired.space, retired.pages, retired.slabs⟩
  · rw [served.objects, Multiset.card_cons]
    exact more.trans (congrArg (· + 1) live)
  · have notes : ({ view with room := ⟨base, free⟩ :: rest } : CacheView).notes size =
        view.notes size := notes_congr rfl pages
    rw [notes] at same'
    exact same'.trans same

end CacheView

/-! ## Putting an object back -/

theorem Slab.containing_eq (size : PageSize) (address : UInt64) :
    Slab.containing address size.bytes = .ok ⟨size.pageOf address⟩ := by
  simp only [Slab.containing, alignDown_eq_ok size.isPowerOfTwo_bytes, bind, Except.bind,
    pure, Except.pure, PageSize.pageOf]

namespace CacheView.Located

variable {size : PageSize} {view : CacheView} {cache : Cache} {memory : Memory} {object : UInt64}
  {front back : List SlabView} {free : List UInt64}

/-- The slab of the object is as the view has it, before it is listed again. -/
theorem describes (located : view.Located size object front free back)
    (h : view.Holds size cache memory) :
    (SlabView.mk (size.pageOf object) free).Describes size view.objectSize memory :=
  h.slabs _ (slabs_reopen.mem_iff.1 located.mem_slabs_reopen)

/-- Releasing the slot of the object in memory. -/
theorem release (located : view.Located size object front free back)
    (regular : view.Regular size)
    (h : (view.reopen (size.pageOf object)).Holds size cache memory) :
    ∃ memory',
      (Slab.mk (size.pageOf object)).release memory (size.slotAt view.objectSize object) =
        .ok memory' ∧
      (view.returned size object).Holds size cache memory' ∧
      Set.EqOn memory'.byte memory.byte (view.notes size)ᶜ := by
  have regular' : (view.reopen (size.pageOf object)).Regular size :=
    regular.congr reopen_objectSize slabs_reopen
  have held := located.mem_slabs_reopen
  have described := h.slabs _ held
  have aligned : size.Aligned (size.pageOf object) := regular'.aligned _ (mem_pages held)
  have sizes : (view.reopen (size.pageOf object)).objectSize = view.objectSize :=
    reopen_objectSize
  rw [sizes] at described
  obtain ⟨memory', released, described', next, same⟩ :=
    release_describes regular.fits aligned located.sound located.inRange located.live described
  have outside := same
  rw [← sizes] at same
  refine ⟨memory', released, ?_, outside.mono (Set.compl_subset_compl.2 ?_)⟩
  · rw [located.returned_eq regular]
    refine h.restack regular' located.listed ?_ next same
    rw [sizes]
    exact described'
  · have inside := notes_subset size held
    rw [sizes, notes_congr sizes (pages_reopen view _)] at inside
    exact inside

/-- The slab of the object is listed again if it was full. -/
theorem reopens {σ : Type} {heap : Heap σ} (located : view.Located size object front free back)
    (regular : view.Regular size) (sound : ∀ slab ∈ view.room, slab.free ≠ [])
    (h : view.Holds size cache heap.memory) :
    ∃ space memory',
      (∀ rest : Cache → HeapM σ Cache,
        (if (Slab.mk (size.pageOf object)).isFull heap.memory then do
            let space ← HeapM.inMemory fun memory =>
              cache.space.pushFront memory ⟨size.pageOf object⟩
            let cache ← pure { cache with space }
            rest cache
          else do
            let cache ← pure cache
            rest cache) heap =
          rest { cache with space } { heap with memory := memory' }) ∧
      (view.reopen (size.pageOf object)).Holds size { cache with space } memory' ∧
      Set.EqOn memory'.byte heap.memory.byte (view.notes size)ᶜ := by
  have full := (located.describes h).isFull_iff
  simp only [SlabView.slab] at full
  have again := located.mem_full_iff regular sound
  by_cases mem : size.pageOf object ∈ view.full
  · obtain ⟨space, memory', pushed, holds, same⟩ := h.reopen regular mem
    refine ⟨space, memory', fun rest => ?_, holds, same⟩
    rw [if_pos (full.2 (again.1 mem)), bind_ok (HeapM.inMemory_ok pushed), pure_bind]
  · have kept : view.reopen (size.pageOf object) = view := by rw [reopen, if_neg mem]
    refine ⟨cache.space, heap.memory, fun rest => ?_, ?_, fun _ _ => rfl⟩
    · rw [if_neg fun holds => mem (again.2 (full.1 holds)), pure_bind]
    · rw [kept]
      exact h

end CacheView.Located

/-- Releasing a slot, as an operation on memory with a result. -/
theorem Slab.release_ok {slab : Slab} {memory memory' : Memory} {slot : UInt64}
    (released : slab.release memory slot = .ok memory') :
    (do return ((), ← slab.release memory slot) : Except Fault (Unit × Memory)) =
      .ok ((), memory') := by
  rw [released]
  rfl

namespace Cache

variable {size : PageSize} {σ : Type} [PageSource σ] {heap : Heap σ} {cache : Cache}
  {slab : Slab} {source : σ} {memory memory₁ memory₂ : Memory} {pages : UInt64}
  {space : SpaceList}

/-- The last step of freeing: a slab that became empty is taken off the list, and
its page is given back. -/
def settle (cache : Cache) (slab : Slab) : HeapM σ Cache := do
  if slab.isEmpty (← HeapM.memory) then
    let (listed, space) ← HeapM.inMemory fun memory => cache.space.remove memory slab
    unless listed do throw (.slabNotListed slab.base cache.objectSize)
    HeapM.givePage slab.base
    let pages ← HeapM.check (checkedSub cache.pages 1)
    return { cache with space, pages }
  else
    return cache

theorem settle_kept (some : ¬ slab.isEmpty heap.memory = true) :
    cache.settle slab heap = .ok cache heap := by
  unfold settle
  rw [bind_ok HeapM.memory_ok, if_neg some]
  rfl

theorem settle_emptied (heap : Heap σ) (empty : slab.isEmpty heap.memory = true)
    (removed : cache.space.remove heap.memory slab = .ok ((true, space), memory₁))
    (given : PageSource.givePage slab.base heap.source memory₁ = .ok (source, memory₂))
    (counted : checkedSub cache.pages 1 = .ok pages) :
    cache.settle slab heap = .ok { cache with space, pages }
      { heap with source, memory := memory₂ } := by
  have given' : PageSource.givePage slab.base ({ heap with memory := memory₁ } : Heap σ).source
      ({ heap with memory := memory₁ } : Heap σ).memory = .ok (source, memory₂) := given
  unfold settle
  rw [bind_ok HeapM.memory_ok, if_pos empty, bind_ok (HeapM.inMemory_ok removed)]
  dsimp only
  rw [if_pos rfl, bind_ok (HeapM.givePage_ok given'),
    bind_ok (HeapM.check_of_ok counted)]
  rfl

end Cache

/-! ## Operations carry out plans -/

open CacheView Cache

section

variable {size : PageSize} {σ : Type} [PageSource σ] {model : PageModel size σ} {heap : Heap σ}
  {source : model.View} {view : CacheView} {cache : Cache} {object : UInt64}
  {others : Multiset UInt64}

/-- A slab with room serves. -/
theorem Cache.alloc_listed (sound : view.Sound size) (regular : view.Regular size)
    (h : view.Describes size cache heap.memory)
    (known : model.Describes source (view.pages + others) heap.source heap.memory)
    (some : view.room ≠ []) :
    ∃ cache' memory',
      cache.alloc size heap = .ok (.ok (view.serve size).1, cache')
        { heap with memory := memory' } ∧
      CacheView.Carried model others heap view { heap with memory := memory' } source
        (view.serve size).2 cache' := by
  obtain ⟨⟨base, free⟩, rest, room⟩ := List.exists_cons_of_ne_nil some
  have listed : SlabView.mk base free ∈ view.room := room ▸ List.mem_cons_self
  obtain ⟨slot, free, rfl⟩ := List.exists_cons_of_ne_nil (sound.free _ listed)
  have head := h.space.1
  rw [room, List.map_cons] at head
  have opening : cache.openSlab size heap = .ok (.ok ⟨base⟩, cache) heap :=
    openSlab_of_head head.1
  obtain ⟨cache', memory', ends, described, same⟩ := h.toHolds.serve opening regular h.live room
  have served := serve_served regular.fits room (sound.slots _ listed)
  exact ⟨cache', memory', ends,
    .of_notes regular known described served.objectSize served.pages same⟩

/-- If no slab has room, a page from the source serves. -/
theorem Cache.alloc_opened (regular : view.Regular size)
    (h : view.Describes size cache heap.memory) (none : view.room = []) {page : UInt64}
    {source' : σ} {memory₁ : Memory}
    (taken : PageSource.takePage heap.source heap.memory = .ok (.ok page, source', memory₁))
    (same : Set.EqOn memory₁.byte heap.memory.byte (size.covered (view.pages + others)))
    (known : model.Describes source (page ::ₘ view.pages + others) source' memory₁) :
    ∃ cache' memory',
      cache.alloc size heap = .ok (.ok ((view.openSlab size page).serve size).1, cache')
        { heap with source := source', memory := memory' } ∧
      CacheView.Carried model others heap view { heap with source := source', memory := memory' }
        source ((view.openSlab size page).serve size).2 cache' := by
  have head := h.space.1
  rw [none] at head
  have held : page ∈ page ::ₘ view.pages + others :=
    Multiset.mem_add.2 (.inl (Multiset.mem_cons_self _ _))
  have fresh : page ∉ view.pages := by
    have nodup := model.nodup known
    rw [Multiset.cons_add, Multiset.nodup_cons, Multiset.mem_add, not_or] at nodup
    exact nodup.1.1
  have aligned := model.aligned known page held
  have nonzero := model.nonzero known page held
  have kept : Set.EqOn memory₁.byte heap.memory.byte (view.notes size) :=
    same.mono fun address noted => Multiset.mem_add.2 (.inl (regular.notes_subset_covered noted))
  obtain ⟨slots, memory₂, space, memory₃, pages, carved, pushed, counted, holds, same₂⟩ :=
    (h.toHolds.congr (fun _ => regular) kept).openSlab regular fresh aligned nonzero
  have opened := regular.openSlab fresh aligned nonzero
  obtain ⟨slot, free, front, first, _⟩ := openSlab_front regular.fits none page
  rw [← h.objectSize] at carved
  have live : cache.live.toNat = ((view.openSlab size page).objects size).card := by
    rw [objects_openSlab]
    exact h.live
  obtain ⟨cache', memory', ends, described, same₃⟩ :=
    holds.serve (openSlab_carved head taken carved pushed counted) opened live front
  have served := serve_served opened.fits front first
  have bodies : view.bodies size ⊆ (view.openSlab size page).bodies size :=
    bodies_mono rfl (Multiset.le_cons_self _ _)
  let heap₁ : Heap σ := { heap with source := source', memory := memory₁ }
  have carried : Carried model others heap₁ (view.openSlab size page) _ source _ cache' :=
    .of_notes opened known described served.objectSize served.pages (same₃.trans same₂)
  exact ⟨cache', memory', ends, carried.of_source same rfl bodies⟩

/-- Allocation carries out the plan of the view. -/
theorem Cache.alloc_follows (fits : size.Fits view.objectSize) (sound : view.Sound size)
    (h : view.Describes size cache heap.memory)
    (known : model.Describes source (view.pages + others) heap.source heap.memory) :
    Follows model (cache.alloc size) (view.alloc size) heap source
      fun result answer heap' source' => ∃ cache',
        result = (answer.1, cache') ∧
        (∀ error, answer.1 = .error error → cache' = cache) ∧
        CacheView.Carried model others heap view heap' source' answer.2 cache' := by
  have regular := sound.regular_of_source fits known
  rcases room : view.room with _ | ⟨slab, rest⟩
  · -- no slab has room, so the page source is asked
    obtain ⟨answer, source₁, state₁, memory₁, taken, allowed, same, known₁⟩ := model.take known
    rcases answer with error | page
    · have head := h.space.1
      rw [room] at head
      rw [granted, Multiset.zero_add] at known₁
      have kept := h.congr (fun _ => regular) (same.mono fun address noted =>
        Multiset.mem_add.2 (.inl (regular.notes_subset_covered noted)))
      let heap₁ : Heap σ :=
        { heap with
          source := state₁
          memory := memory₁
          journal := .noPageForSlab cache.objectSize error :: heap.journal }
      have carried : Carried model others heap₁ view heap₁ source₁ view cache := .refl kept known₁
      refine ⟨(.error error, cache), _, (.error error, view), source₁,
        alloc_of_refused (openSlab_refused head taken), ?_, cache, rfl, fun _ _ => rfl,
        carried.of_source same rfl (Set.Subset.refl _)⟩
      rw [CacheView.alloc, room]
      exact ⟨.error error, source₁, allowed, rfl, rfl⟩
    · rw [granted, Multiset.singleton_add, ← Multiset.cons_add] at known₁
      obtain ⟨cache', memory', ends, carried⟩ := alloc_opened regular h room taken same known₁
      refine ⟨_, _, (.ok ((view.openSlab size page).serve size).1,
        ((view.openSlab size page).serve size).2), source₁, ends, ?_, cache', rfl, nofun, carried⟩
      rw [CacheView.alloc, room]
      exact ⟨.ok page, source₁, allowed, rfl, rfl⟩
  · have some : view.room ≠ [] := room ▸ List.cons_ne_nil _ _
    obtain ⟨cache', memory', ends, carried⟩ := alloc_listed sound regular h known some
    refine ⟨_, _, (.ok (view.serve size).1, (view.serve size).2), source, ends, ?_, cache', rfl,
      nofun, carried⟩
    rw [CacheView.alloc, room]
    exact ⟨rfl, rfl⟩

section Free

variable {front back : List SlabView} {free : List UInt64}
  (located : view.Located size object front free back) (regular : view.Regular size)

include located regular

/-- Freeing any address in the page of an object gets as far as the slot, if the address has
one: the slab is listed then. -/
theorem Cache.free_reaches (sound : ∀ slab ∈ view.room, slab.free ≠ [])
    (h : view.Describes size cache heap.memory) {address slot : UInt64}
    (inPage : size.pageOf address = size.pageOf object)
    (found : (Slab.mk (size.pageOf object)).slotOf heap.memory address = .ok slot) :
    ∃ space memory',
      cache.free size address heap = (do
        HeapM.inMemory fun memory =>
          return ((), ← (Slab.mk (size.pageOf object)).release memory slot)
        Cache.settle { cache with space, live := cache.live - 1 } ⟨size.pageOf object⟩)
          { heap with memory := memory' } ∧
      (view.reopen (size.pageOf object)).Holds size { cache with space, live := cache.live - 1 }
        memory' ∧
      (cache.live - 1).toNat + 1 = (view.objects size).card ∧
      Set.EqOn memory'.byte heap.memory.byte (view.notes size)ᶜ := by
  have gone := located.objects_returned regular
  have count := h.live
  rw [gone, Multiset.card_cons] at count
  have live : cache.live ≠ 0 := by
    intro zero
    rw [zero, UInt64.toNat_zero] at count
    omega
  have pos : 0 < cache.live.toNat := by omega
  obtain ⟨_, fewer⟩ := checkedSub_one pos
  have holds : view.Holds size { cache with live := cache.live - 1 } heap.memory :=
    ⟨h.objectSize, h.space, h.pages, h.slabs⟩
  obtain ⟨space, memory', reopened, holds', same⟩ := located.reopens regular sound holds
  refine ⟨space, memory', ?_, holds', fewer.trans h.live, same⟩
  have inSlab := Slab.containing_eq size address
  rw [inPage] at inSlab
  unfold Cache.free
  rw [bind_ok (HeapM.check_of_ok inSlab), bind_ok HeapM.memory_ok,
    bind_ok (HeapM.check_of_ok found), if_neg live]
  dsimp only
  rw [bind_ok HeapM.memory_ok, reopened]
  rfl

/-- Up to the last step of freeing, the slot is put back. -/
theorem Cache.free_returns (sound : ∀ slab ∈ view.room, slab.free ≠ [])
    (h : view.Describes size cache heap.memory) :
    ∃ space memory',
      cache.free size object heap =
        Cache.settle { cache with space, live := cache.live - 1 } ⟨size.pageOf object⟩
          { heap with memory := memory' } ∧
      (view.returned size object).Describes size { cache with space, live := cache.live - 1 }
        memory' ∧
      Set.EqOn memory'.byte heap.memory.byte (view.notes size)ᶜ := by
  have found := (located.describes h.toHolds).slotOf_eq regular.fits located.inRange
  rw [located.address, SlabView.slab] at found
  obtain ⟨space, memory₁, reaches, holds₁, count, same₁⟩ :=
    Cache.free_reaches located regular sound h rfl found
  obtain ⟨memory₂, released, holds₂, same₂⟩ := located.release regular holds₁
  rw [located.objects_returned regular, Multiset.card_cons] at count
  refine ⟨space, memory₂, ?_, ⟨holds₂, Nat.succ.inj count⟩, same₂.trans same₁⟩
  rw [reaches, bind_ok (HeapM.inMemory_ok (Slab.release_ok released))]

/-- The slab in memory is empty exactly if the view says so. -/
theorem Slab.isEmpty_iff_emptied {memory : Memory}
    (h : (view.returned size object).Holds size cache memory) :
    (Slab.mk (size.pageOf object)).isEmpty memory = true ↔
      (view.returned size object).Emptied size (size.pageOf object) := by
  have listed := located.room_returned regular
  have described := h.slabs _ (List.mem_append_left _ (listed ▸ List.mem_append_right _
    List.mem_cons_self))
  have empty := described.isEmpty_iff
  have count : (size.slotAt view.objectSize object :: free).length = free.length + 1 :=
    List.length_cons
  simp only [SlabView.slab, count] at empty
  rw [empty, Located.objectSize_returned, ← located.emptied_iff regular]

/-- The last step carries out the rest of the plan. -/
theorem Cache.settle_follows (h : (view.returned size object).Describes size cache heap.memory)
    (known : model.Describes source (view.pages + others) heap.source heap.memory) :
    Follows model (cache.settle ⟨size.pageOf object⟩) (view.free size object) heap source
      fun cache' view' heap' source' =>
        CacheView.Carried model others heap (view.returned size object) heap' source' view'
          cache' := by
  have regular' := located.regular_returned regular
  have empty := Slab.isEmpty_iff_emptied located regular h.toHolds
  have planned : view.free size object =
      if (view.returned size object).Emptied size (size.pageOf object) then
        .give (size.pageOf object)
          (.done ((view.returned size object).drop (size.pageOf object)))
      else .done (view.returned size object) := rfl
  rw [← located.pages_returned regular] at known
  by_cases leaves : (view.returned size object).Emptied size (size.pageOf object)
  · have split := located.slabs_returned_drop regular
    have dropped : ((view.returned size object).drop (size.pageOf object)).Regular size :=
      regular'.without rfl split
    obtain ⟨space, memory₁, pages, removed, counted, holds, same₁⟩ :=
      h.toHolds.drop regular' (located.room_returned regular)
    have known₁ := model.congr known (same₁.mono (Set.compl_subset_compl.2
      fun address noted => Multiset.mem_add.2 (.inl (regular'.notes_subset_covered noted))))
    rw [pages_cons split, Multiset.cons_add] at known₁
    obtain ⟨source₂, state₂, memory₂, given, allowed, same₂, known₂⟩ := model.give known₁
    have left : ((view.returned size object).drop (size.pageOf object)).notes size ⊆
        size.covered (((view.returned size object).drop (size.pageOf object)).pages + others) :=
      fun address noted => Multiset.mem_add.2 (.inl (dropped.notes_subset_covered noted))
    have holds₂ := holds.congr (fun _ => dropped) (same₂.mono left)
    refine ⟨_, _, (view.returned size object).drop (size.pageOf object), source₂,
      Cache.settle_emptied heap (empty.2 leaves) removed given counted, ?_,
      ⟨⟨holds₂, ?_⟩, known₂, ?_, rfl⟩⟩
    · rw [planned, if_pos leaves]
      exact ⟨source₂, allowed, rfl, rfl⟩
    · rw [located.objects_drop regular ((located.emptied_iff regular).1 leaves)]
      exact h.live
    · refine (same₂.mono ?_).trans (same₁.mono ?_)
      · rintro address (other | body)
        · exact Multiset.mem_add.2 (.inr other)
        · exact Multiset.mem_add.2 (.inl body.2.1)
      · exact (Set.union_subset_union_right _ Set.inter_subset_left).trans
          (regular'.subset_compl_notes (model.nodup known))
  · have some : ¬ (Slab.mk (size.pageOf object)).isEmpty heap.memory = true :=
      fun holds => leaves (empty.1 holds)
    refine ⟨_, _, view.returned size object, source, Cache.settle_kept some, ?_, .refl h known⟩
    rw [planned, if_neg leaves]
    exact ⟨rfl, rfl⟩

end Free

/-- Freeing carries out the plan of the view. -/
theorem Cache.free_follows (fits : size.Fits view.objectSize) (sound : view.Sound size)
    (h : view.Describes size cache heap.memory)
    (known : model.Describes source (view.pages + others) heap.source heap.memory)
    (mem : object ∈ view.objects size) :
    Follows model (cache.free size object) (view.free size object) heap source
      fun cache' view' heap' source' =>
        CacheView.Carried model others heap view heap' source' view' cache' := by
  have regular := sound.regular_of_source fits known
  obtain ⟨front, free, back, located⟩ := regular.exists_located mem
  obtain ⟨space, memory', start, returned, same⟩ :=
    Cache.free_returns located regular sound.free h
  have pages := located.pages_returned regular
  have carried : Carried model others heap view { heap with memory := memory' } source _ _ :=
    .of_notes regular known returned Located.objectSize_returned pages same
  have known' := carried.source
  rw [pages] at known'
  obtain ⟨cache', heap', view', source', ends, run, settled⟩ :=
    Cache.settle_follows located regular returned known'
  refine ⟨cache', heap', view', source', start.trans ends, run, carried.trans settled ?_⟩
  rw [bodies_congr Located.objectSize_returned pages]
  exact Set.inter_subset_left

end

end SlabHeap
