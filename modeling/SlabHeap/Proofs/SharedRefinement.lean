import SlabHeap.Proofs.SharedView

/-!
# Shared heaps refine lists of caches

What an operation of one allocator leaves is enough for the others
(`SharedView.Houses.operate`): their pages are not touched, and their stored
caches are in their own pages.  With this each request ends without a fault and
carries out its plan on any page source, provided that a freed block is a user's
and a write stays in a block.

A metered pool answers in one way only, and there the plan is run.  A region that
is added to it has to bring new pages.
-/

namespace SlabHeap

namespace SharedHeap

variable {σ α : Type} {count : Nat} {shared : SharedHeap σ count} {heap : Heap σ} {a : α}

theorem onHeap_ok {operation : HeapM σ α} (ends : operation shared.heap = .ok a heap) :
    onHeap operation shared = .ok a { shared with heap } := by
  unfold onHeap
  rw [ends]

theorem onAllocator_ok {i : Fin count} {operation : Allocator → HeapM σ (α × Allocator)}
    {allocator : Allocator}
    (ends : operation (shared.allocators.get i) shared.heap = .ok (a, allocator) heap) :
    onAllocator i operation shared =
      .ok a { heap, allocators := shared.allocators.set i allocator i.isLt } := by
  have started : (get : Op σ count _) shared = .ok shared shared := rfl
  unfold onAllocator
  rw [bind_ok started, bind_ok (onHeap_ok ends)]
  rfl

/-- An allocator that is written back as it was. -/
theorem onAllocator_kept {i : Fin count} {operation : Allocator → HeapM σ (α × Allocator)}
    (ends : operation (shared.allocators.get i) shared.heap =
      .ok (a, shared.allocators.get i) heap) :
    onAllocator i operation shared = .ok a { shared with heap } := by
  rw [onAllocator_ok ends, set_get_self]

end SharedHeap

namespace SharedView.Houses

variable {size : PageSize} {count : Nat} {view : SharedView count} {σ : Type} [PageSource σ]
  {shared : SharedHeap σ count} {i : Fin count} (h : view.Houses size shared)

include h

/-! ## Requests that leave all caches -/

theorem free_closed (closed : (view.allocators i).initialized = false) (object : UInt64) :
    SharedHeap.serve size (.free i object) shared = .ok .done { shared with
      heap := { shared.heap with journal := .freedTooEarly :: shared.heap.journal } } := by
  have closed' : ¬ (shared.allocators.get i).initialized = true := by
    rw [(h.allocators i).initialized, closed]
    exact Bool.false_ne_true
  rw [SharedHeap.serve]
  refine SharedHeap.onAllocator_kept ?_
  unfold Allocator.free
  rw [if_neg closed']
  rfl

theorem teardown_closed (closed : (view.allocators i).initialized = false) :
    SharedHeap.serve size (.teardown i) shared = .ok .done shared := by
  have closed' : ¬ (shared.allocators.get i).initialized = true := by
    rw [(h.allocators i).initialized, closed]
    exact Bool.false_ne_true
  rw [SharedHeap.serve]
  refine SharedHeap.onAllocator_kept ?_
  unfold Allocator.teardown
  rw [if_neg closed']
  rfl

/-- Writing into a block leaves what is known of the heap. -/
theorem write {block : Block} {address : UInt64} {values : List UInt8} {cache : CacheView}
    (mem : cache ∈ view.caches) (own : block ∈ cache.blocks size)
    (inside : Memory.run address values.length ⊆ block.run) : ∃ memory,
    SharedHeap.serve size (.write address values) shared =
      .ok .done { shared with heap := { shared.heap with memory } } ∧
    view.Houses size { shared with heap := { shared.heap with memory } } ∧
    Set.EqOn memory.byte shared.heap.memory.byte (Memory.run address values.length)ᶜ ∧
    Memory.run address values.length ⊆ size.covered view.held := by
  obtain ⟨object, sizes⟩ := CacheView.mem_blocks.1 own
  have regular := h.regular_of_mem mem (CacheView.slabs_ne_nil own)
  have body : Memory.run address values.length ⊆ cache.bodies size := by
    refine inside.trans ?_
    rw [Block.run, sizes]
    exact regular.run_object_subset_bodies object
  have same := Memory.eqOn_setBytes shared.heap.memory address values
  refine ⟨_, rfl, ⟨h.nodup, h.aligned, h.nonzero, fun j => ?_, h.sound, h.lost, h.rounded⟩, same,
    (body.trans CacheView.bodies_subset_covered).trans
      (PageSize.covered_mono (CacheView.pages_le_sum mem))⟩
  refine ⟨(h.allocators j).table.congr (h.sound j).table (h.regular j) (same.mono ?_)
    fun _ _ => rfl, (h.allocators j).initialized⟩
  rintro address ⟨other, held, noted⟩ written
  exact h.notMem_notes mem (mem_caches.2 (.inl ⟨j, held⟩)) (body written) noted

/-! ## Requests that change caches -/

section Operate

variable {model : PageModel size σ} {source source' : model.View} {heap : Heap σ}
  {allocatorView : AllocatorView} {allocator : Allocator} {dropped : List CacheView}

omit h in
/-- The pages of one allocator and those of the others are apart. -/
theorem split_source
    (known : model.Describes source view.held shared.heap.source shared.heap.memory)
    (i : Fin count) : model.Describes source
      ((view.allocators i).table.pages + view.heldByOthers i) shared.heap.source
      shared.heap.memory := by
  rw [← held_eq]
  exact known

/-- An operation of one allocator leaves what is known of the others, also where it
gives up caches. -/
theorem operate_dropping (pool : PoolView)
    (carried : TableView.Carried model
      ((dropped.map CacheView.pages).sum + view.heldByOthers i) shared.heap
      (view.allocators i).table heap source' allocatorView.table allocator.table)
    (initialized : allocator.initialized = allocatorView.initialized)
    (registered : allocatorView.table.registered = allocatorView.initialized)
    (sound : ∀ cache ∈ dropped, cache.Sound size)
    (rounded : ∀ cache ∈ dropped, cache.objectSize % objectAlign = 0) :
    Houses size { pool, allocators := Function.update view.allocators i allocatorView,
                  lost := dropped ++ view.lost }
      { heap, allocators := shared.allocators.set i allocator i.isLt } ∧
    model.Describes source' (held
      { pool, allocators := Function.update view.allocators i allocatorView,
        lost := dropped ++ view.lost }) heap.source heap.memory := by
  have source : model.Describes source' (held
      { pool, allocators := Function.update view.allocators i allocatorView,
        lost := dropped ++ view.lost }) heap.source heap.memory := by
    rw [held_update]
    exact carried.source
  refine ⟨⟨model.nodup source, model.aligned source, model.nonzero source, fun j => ?_,
    fun j => ?_, fun cache mem => ?_, fun cache mem => ?_⟩, source⟩
  · by_cases same : j = i
    · subst same
      simp only [Function.update_self, get_set_self]
      exact ⟨carried.describes, initialized⟩
    · simp only [Function.update_of_ne same, get_set_of_ne _ _ same]
      have le : (view.allocators j).table.pages ≤
          (dropped.map CacheView.pages).sum + view.heldByOthers i :=
        le_trans (pages_le_heldByOthers same) (Multiset.le_add_left _ _)
      refine ⟨(h.allocators j).table.congr (h.sound j).table (h.regular j) ?_ ?_,
        (h.allocators j).initialized⟩
      · refine carried.frame.mono (Set.Subset.trans ?_ Set.subset_union_left)
        exact ((h.sound j).table.notes_subset_covered (h.regular j)).trans
          (PageSize.covered_mono le)
      · intro address mem
        exact carried.read_of_others
          (Multiset.mem_of_le le ((h.sound j).table.pageOf_address (h.regular j) mem))
  · by_cases same : j = i
    · subst same
      simp only [Function.update_self]
      exact ⟨carried.sound, registered⟩
    · simp only [Function.update_of_ne same]
      exact h.sound j
  · rcases List.mem_append.1 mem with new | old
    · exact sound cache new
    · exact h.lost cache old
  · rcases List.mem_append.1 mem with new | old
    · exact rounded cache new
    · exact h.rounded cache old

theorem operate (pool : PoolView)
    (carried : TableView.Carried model (view.heldByOthers i) shared.heap
      (view.allocators i).table heap source' allocatorView.table allocator.table)
    (initialized : allocator.initialized = allocatorView.initialized)
    (registered : allocatorView.table.registered = allocatorView.initialized) :
    Houses size { view with pool, allocators := Function.update view.allocators i allocatorView }
      { heap, allocators := shared.allocators.set i allocator i.isLt } ∧
    model.Describes source' (held
      { view with pool, allocators := Function.update view.allocators i allocatorView })
      heap.source heap.memory := by
  have none : (([] : List CacheView).map CacheView.pages).sum + view.heldByOthers i =
      view.heldByOthers i := Multiset.zero_add _
  rw [← none] at carried
  exact h.operate_dropping pool carried initialized registered nofun nofun

end Operate

section Requests

variable {model : PageModel size σ} {source : model.View}
  (known : model.Describes source view.held shared.heap.source shared.heap.memory)

include known

theorem init (i : Fin count) : ∃ allocator journal,
    SharedHeap.serve size (.init i) shared = .ok .done
      { heap := { shared.heap with journal },
        allocators := shared.allocators.set i allocator i.isLt } ∧
    allocator.initialized = true ∧ (view.allocators i).init.initialized = true ∧
    (view.allocators i).init.table.registered = true ∧
    (view.allocators i).init.table.users size = (view.allocators i).table.users size ∧
    TableView.Carried model (view.heldByOthers i) shared.heap (view.allocators i).table
      { shared.heap with journal } source (view.allocators i).init.table allocator.table := by
  obtain ⟨allocator, journal, ends, described, sound, users, pages, opened⟩ :=
    Allocator.init_ok (h.sound i) (h.allocators i)
  have others := split_source known i
  rw [← pages] at others
  refine ⟨allocator, journal, ?_, described.initialized.trans opened, opened,
    sound.registered.trans opened, users, sound.table, described.table, others, fun _ _ => rfl,
    fun _ _ => rfl⟩
  rw [SharedHeap.serve]
  refine SharedHeap.onAllocator_ok ?_
  rw [bind_ok ends]
  rfl

/-- Serving an object changes one allocator. -/
theorem alloc_served (fits : size.Fits maxObjectSize) (i : Fin count) (bytes : UInt64) :
    ∃ answer allocatorView allocator heap source',
    SharedHeap.serve size (.alloc i bytes) shared =
      .ok (.object answer) { heap, allocators := shared.allocators.set i allocator i.isLt } ∧
    ((view.allocators i).alloc size bytes).Runs model source (answer, allocatorView) source' ∧
    allocator.initialized = (shared.allocators.get i).initialized ∧
    allocatorView.initialized = (view.allocators i).initialized ∧
    TableView.Served model (view.heldByOthers i) shared.heap (view.allocators i).table
      ((granted answer).map fun object => ⟨object, servedSize bytes⟩) heap source'
      allocatorView.table allocator.table := by
  obtain ⟨⟨answer, allocator⟩, heap, ⟨_, allocatorView⟩, source', ends, runs, rfl, kept, kept',
    served⟩ :=
    Allocator.alloc_follows (h.sound i) (h.allocators i) (split_source known i) fits bytes
  refine ⟨answer, allocatorView, allocator, heap, source', ?_, runs, kept, kept', served⟩
  rw [SharedHeap.serve]
  refine SharedHeap.onAllocator_ok ?_
  rw [bind_ok ends]
  rfl

/-- Freeing an object changes one allocator. -/
theorem free_freed {block : Block} (opened : (view.allocators i).initialized = true)
    (mem : block ∈ (view.allocators i).table.users size) : ∃ allocatorView allocator heap source',
    SharedHeap.serve size (.free i block.address) shared =
      .ok .done { heap, allocators := shared.allocators.set i allocator i.isLt } ∧
    ((view.allocators i).free size block.address).Runs model source allocatorView source' ∧
    allocator.initialized = (shared.allocators.get i).initialized ∧
    allocatorView.initialized = (view.allocators i).initialized ∧
    TableView.Freed model (view.heldByOthers i) shared.heap (view.allocators i).table {block} heap
      source' allocatorView.table allocator.table := by
  obtain ⟨allocator, heap, allocatorView, source', ends, runs, kept, kept', freed⟩ :=
    Allocator.free_follows (h.sound i) (h.allocators i) (split_source known i) opened mem
  refine ⟨allocatorView, allocator, heap, source', ?_, runs, kept, kept', freed⟩
  rw [SharedHeap.serve]
  refine SharedHeap.onAllocator_ok ?_
  rw [bind_ok ends]
  rfl

/-- Tearing down changes one allocator. -/
theorem teardown_dropped (opened : (view.allocators i).initialized = true) :
    ∃ allocatorView allocator heap source',
    SharedHeap.serve size (.teardown i) shared =
      .ok .done { heap, allocators := shared.allocators.set i allocator i.isLt } ∧
    ((view.allocators i).teardown size).Runs model source allocatorView source' ∧
    allocator.initialized = false ∧ allocatorView.initialized = false ∧
    TableView.Dropped model (view.heldByOthers i) shared.heap (view.allocators i).table heap
      source' allocatorView.table allocator.table := by
  obtain ⟨allocator, heap, allocatorView, source', ends, runs, kept, kept', dropped⟩ :=
    Allocator.teardown_follows (h.sound i) (h.allocators i) (split_source known i) opened
  refine ⟨allocatorView, allocator, heap, source', ?_, runs, kept, kept', dropped⟩
  rw [SharedHeap.serve]
  refine SharedHeap.onAllocator_ok ?_
  rw [bind_ok ends]
  rfl

end Requests

end SharedView.Houses

/-! ## Metered pools -/

namespace SharedView.Describes

variable {size : PageSize} {count : Nat} {view : SharedView count}
  {shared : SharedHeap (MeteredPool size) count} {i : Fin count} (h : view.Describes shared)

include h

theorem refuse (refusal : Option Refusal) : ∃ shared',
    SharedHeap.perform (.refuse refusal) shared = .ok .done shared' ∧
    (view.perform size (.refuse refusal)).2.Describes shared' ∧
    shared'.heap.memory = shared.heap.memory ∧ shared'.heap.store = shared.heap.store :=
  ⟨_, rfl, ⟨⟨rfl, h.pool.requests, h.pool.released, h.pool.stack, h.pool.total, h.pool.split,
    h.pool.nodup, h.pool.aligned, h.pool.nonzero⟩, h.allocators, h.sound, h.lost, h.rounded⟩,
    rfl, rfl⟩

variable (fits : size.Fits maxObjectSize)

include fits

/-- The pool is what a page source is known by. -/
theorem known : (MeteredPool.model fits.wide).Describes view.pool view.held shared.heap.source
    shared.heap.memory := h.pool

theorem alloc_served (i : Fin count) (bytes : UInt64) : ∃ allocator heap,
    SharedHeap.perform (.request (.alloc i bytes)) shared =
      .ok (.object (((view.allocators i).alloc size bytes).run view.pool).1.1)
        { heap, allocators := shared.allocators.set i allocator i.isLt } ∧
    TableView.Served (MeteredPool.model fits.wide) (view.heldByOthers i) shared.heap
      (view.allocators i).table
      ((granted (((view.allocators i).alloc size bytes).run view.pool).1.1).map
        fun object => ⟨object, servedSize bytes⟩) heap
      (((view.allocators i).alloc size bytes).run view.pool).2
      (((view.allocators i).alloc size bytes).run view.pool).1.2.table allocator.table := by
  obtain ⟨answer, allocatorView, allocator, heap, pool, ends, runs, _, _, served⟩ :=
    h.houses.alloc_served (h.known fits) fits i bytes
  rw [(Plan.runs_iff fits.wide).1 runs]
  exact ⟨allocator, heap, ends, served⟩

theorem free_freed {block : Block} (opened : (view.allocators i).initialized = true)
    (mem : block ∈ (view.allocators i).table.users size) : ∃ allocator heap,
    SharedHeap.perform (.request (.free i block.address)) shared =
      .ok .done { heap, allocators := shared.allocators.set i allocator i.isLt } ∧
    TableView.Freed (MeteredPool.model fits.wide) (view.heldByOthers i) shared.heap
      (view.allocators i).table {block} heap
      (((view.allocators i).free size block.address).run view.pool).2
      (((view.allocators i).free size block.address).run view.pool).1.table allocator.table := by
  obtain ⟨allocatorView, allocator, heap, pool, ends, runs, _, _, freed⟩ :=
    h.houses.free_freed (h.known fits) opened mem
  rw [(Plan.runs_iff fits.wide).1 runs]
  exact ⟨allocator, heap, ends, freed⟩

theorem teardown_dropped (opened : (view.allocators i).initialized = true) : ∃ allocator heap,
    SharedHeap.perform (.request (.teardown i)) shared =
      .ok .done { heap, allocators := shared.allocators.set i allocator i.isLt } ∧
    allocator.initialized = false ∧
    TableView.Dropped (MeteredPool.model fits.wide) (view.heldByOthers i) shared.heap
      (view.allocators i).table heap (((view.allocators i).teardown size).run view.pool).2
      (((view.allocators i).teardown size).run view.pool).1.table allocator.table := by
  obtain ⟨allocatorView, allocator, heap, pool, ends, runs, closed, _, dropped⟩ :=
    h.houses.teardown_dropped (h.known fits) opened
  rw [(Plan.runs_iff fits.wide).1 runs]
  exact ⟨allocator, heap, ends, closed, dropped⟩

theorem addMemory {extent : Extent} (fresh : ∀ page ∈ extent.pages size, page ∉ view.pool.added) :
    ∃ shared', SharedHeap.perform (.addMemory extent.start extent.length) shared =
      .ok (.region (view.pool.addRegion size extent).1) shared' ∧
    (view.perform size (.addMemory extent.start extent.length)).2.Describes shared' := by
  obtain ⟨heap, ends, described, same, store⟩ := HeapM.addMemory_adds h.pool fresh
  have housed : view.Houses size { shared with heap } := h.houses.congr rfl store (same fits.wide)
  refine ⟨{ shared with heap }, ?_, described, housed.allocators, h.sound, h.lost, h.rounded⟩
  rw [SharedHeap.perform]
  refine SharedHeap.onHeap_ok ?_
  rw [bind_ok ends]
  rfl

end SharedView.Describes

end SlabHeap
