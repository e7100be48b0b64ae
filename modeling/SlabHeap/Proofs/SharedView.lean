import Mathlib.Algebra.BigOperators.Fin
import SlabHeap.SharedHeap
import SlabHeap.Proofs.AllocatorRefinement
import SlabHeap.Proofs.RegionPages

/-!
# Shared heaps as lists of caches

The abstract shared heap has the abstract allocators, the pool they share, and the
caches that teardowns gave up.  What is in the pages of those is not known any
more, but the pages are not the pool's either, so nobody else is served from them.

`SharedView.perform` is a function of lists and stacks.  All caches of all
allocators and the ones given up are on different pages (`SharedView.Describes`),
and that keeps their blocks apart.
-/

namespace SlabHeap

/-- Abstract allocators over an abstract pool. -/
structure SharedView (count : Nat) where
  /-- The pool they share. -/
  pool : PoolView := {}
  /-- The allocators. -/
  allocators : Fin count → AllocatorView := fun _ => {}
  /-- The caches that were given up, the latest first. -/
  lost : List CacheView := []

namespace SharedView

variable {count : Nat}

/-- All caches on pages that were taken from the pool. -/
def caches (view : SharedView count) : List CacheView :=
  (List.finRange count).flatMap (fun i => (view.allocators i).table.caches) ++ view.lost

/-- The pages taken from the pool. -/
def held (view : SharedView count) : Multiset UInt64 := (view.caches.map CacheView.pages).sum

/-- The blocks of the caches that were given up. -/
def lostBlocks (size : PageSize) (view : SharedView count) : Multiset Block :=
  (view.lost.map (CacheView.blocks size)).sum

/-- The pages that one allocator does not hold. -/
def heldByOthers (view : SharedView count) (i : Fin count) : Multiset UInt64 :=
  pagesOfOthers (fun allocator : AllocatorView => allocator.table.pages) view.allocators i +
    (view.lost.map CacheView.pages).sum

/-- Perform an action. -/
def perform (size : PageSize) : Action count → SharedView count → Reply × SharedView count
  | .request (.init i), view =>
    (.done, { view with
      allocators := Function.update view.allocators i (view.allocators i).init })
  | .request (.teardown i), view =>
    let ended := ((view.allocators i).teardown size).run view.pool
    (.done, {
      pool := ended.2
      allocators := Function.update view.allocators i ended.1
      lost := (view.allocators i).dropped ++ view.lost })
  | .request (.alloc i bytes), view =>
    let ended := ((view.allocators i).alloc size bytes).run view.pool
    (.object ended.1.1, { view with
      pool := ended.2
      allocators := Function.update view.allocators i ended.1.2 })
  | .request (.free i object), view =>
    let ended := ((view.allocators i).free size object).run view.pool
    (.done, { view with
      pool := ended.2
      allocators := Function.update view.allocators i ended.1 })
  | .request (.write _ _), view => (.done, view)
  | .addMemory start length, view =>
    let added := view.pool.addRegion size ⟨start, length⟩
    (.region added.1, { view with pool := added.2 })
  | .refuse refusal, view => (.done, { view with pool := { view.pool with refusal } })

/-- What a request asks of the source of the pages, and what it makes of the allocators. -/
def plan (size : PageSize) : Request count → SharedView count → Plan (Reply × SharedView count)
  | .init i, view => return (.done, { view with
      allocators := Function.update view.allocators i (view.allocators i).init })
  | .teardown i, view => do
    let allocator ← (view.allocators i).teardown size
    return (.done, { view with
      allocators := Function.update view.allocators i allocator
      lost := (view.allocators i).dropped ++ view.lost })
  | .alloc i bytes, view => do
    let served ← (view.allocators i).alloc size bytes
    return (.object served.1, { view with
      allocators := Function.update view.allocators i served.2 })
  | .free i object, view => do
    let allocator ← (view.allocators i).free size object
    return (.done, { view with allocators := Function.update view.allocators i allocator })
  | .write _ _, view => return (.done, view)

/-- To perform a request is to run its plan on the pool. -/
theorem perform_request (size : PageSize) (request : Request count) (view : SharedView count) :
    view.perform size (.request request) =
      (((view.plan size request).run view.pool).1.1,
        { ((view.plan size request).run view.pool).1.2 with
          pool := ((view.plan size request).run view.pool).2 }) := by
  cases request with
  | init i => rfl
  | teardown i =>
    rw [plan, Plan.run_bind]
    rfl
  | alloc i bytes =>
    rw [plan, Plan.run_bind]
    rfl
  | free i object =>
    rw [plan, Plan.run_bind]
    rfl
  | write address values => rfl

variable {size : PageSize} {view : SharedView count} {shared : SharedHeap (MeteredPool size) count}
  {i j : Fin count} {cache : CacheView}

/-! ## The pages of all caches -/

theorem mem_caches : cache ∈ view.caches ↔
    (∃ i, cache ∈ (view.allocators i).table.caches) ∨ cache ∈ view.lost := by
  rw [caches, List.mem_append, List.mem_flatMap]
  simp only [List.mem_finRange, true_and]

/-- Summing over all caches. -/
theorem sum_caches {α : Type} [AddCommMonoid α] (f : CacheView → α) (view : SharedView count) :
    (view.caches.map f).sum =
      ∑ i, ((view.allocators i).table.caches.map f).sum + (view.lost.map f).sum := by
  rw [caches, List.map_append, List.sum_append, List.map_flatMap, List.flatMap_def,
    List.sum_flatten, List.map_map, Fin.sum_univ_def]
  rfl

theorem held_eq_sum (view : SharedView count) : view.held =
    ∑ i, (view.allocators i).table.pages + (view.lost.map CacheView.pages).sum :=
  view.sum_caches CacheView.pages

/-- The pages taken from the pool are those of one allocator and those of the
others. -/
theorem held_eq (view : SharedView count) (i : Fin count) :
    view.held = (view.allocators i).table.pages + view.heldByOthers i := by
  rw [held_eq_sum, sum_pages_eq (fun allocator : AllocatorView => allocator.table.pages)
    view.allocators i, heldByOthers, add_assoc]

theorem pages_le_heldByOthers (differ : j ≠ i) :
    (view.allocators j).table.pages ≤ view.heldByOthers i :=
  le_trans (pages_le_pagesOfOthers (fun allocator : AllocatorView => allocator.table.pages)
    view.allocators differ) (Multiset.le_add_right _ _)

/-- The pages after an allocator changed and gave up some caches. -/
theorem held_update (view : SharedView count) (i : Fin count) (pool : PoolView)
    (allocator : AllocatorView) (dropped : List CacheView) :
    held { pool, allocators := Function.update view.allocators i allocator,
           lost := dropped ++ view.lost } =
      allocator.table.pages + ((dropped.map CacheView.pages).sum + view.heldByOthers i) := by
  rw [held_eq_sum, heldByOthers]
  dsimp only
  rw [sum_pages_update (fun allocator : AllocatorView => allocator.table.pages) view.allocators i
    allocator, List.map_append, List.sum_append]
  abel

/-- Where an object is served, the request has a class. -/
theorem exists_class {bytes object : UInt64}
    (served : (view.perform size (.request (.alloc i bytes))).1 = .object (.ok object)) :
    ∃ cls, SizeClass.ofRequest? bytes = some cls := by
  have answer : (((view.allocators i).alloc size bytes).run view.pool).1.1 = .ok object :=
    Reply.object.inj served
  unfold AllocatorView.alloc at answer
  split at answer
  · split at answer
    · cases answer
    · rename_i cls request
      exact ⟨cls, request⟩
  · cases answer

/-- On a closed allocator nothing is freed. -/
theorem plan_free_closed (closed : (view.allocators i).initialized = false) (object : UInt64) :
    view.plan size (.free i object) = pure (.done, view) := by
  have kept : (view.allocators i).free size object = pure (view.allocators i) := by
    rw [AllocatorView.free, closed, if_neg Bool.false_ne_true]
  rw [plan, kept, pure_bind, Function.update_eq_self]

theorem perform_free_closed (closed : (view.allocators i).initialized = false) (object : UInt64) :
    view.perform size (.request (.free i object)) = (.done, view) := by
  rw [perform_request, plan_free_closed closed]
  rfl

/-- A closed allocator has nothing to tear down. -/
theorem plan_teardown_closed (closed : (view.allocators i).initialized = false) :
    view.plan size (.teardown i) = pure (.done, view) := by
  have kept : (view.allocators i).teardown size = pure (view.allocators i) := by
    rw [AllocatorView.teardown, closed, if_neg Bool.false_ne_true]
  have none : (view.allocators i).dropped = [] := by
    rw [AllocatorView.dropped, closed, if_neg Bool.false_ne_true]
  rw [plan, kept, none, pure_bind, Function.update_eq_self, List.nil_append]

theorem perform_teardown_closed (closed : (view.allocators i).initialized = false) :
    view.perform size (.request (.teardown i)) = (.done, view) := by
  rw [perform_request, plan_teardown_closed closed]
  rfl

/-! ## Shared heaps in memory -/

/-- The allocators are as the view has them, and the pages of all caches are good ones.  This
says nothing of the source that the pages were taken from. -/
structure Houses {σ : Type} (size : PageSize) (view : SharedView count)
    (shared : SharedHeap σ count) : Prop where
  nodup : view.held.Nodup
  aligned : ∀ page ∈ view.held, size.Aligned page
  nonzero : ∀ page ∈ view.held, page ≠ 0
  allocators : ∀ i, (view.allocators i).Describes size (shared.allocators.get i) shared.heap.store
    shared.heap.memory
  sound : ∀ i, (view.allocators i).Sound size
  lost : ∀ cache ∈ view.lost, cache.Sound size
  rounded : ∀ cache ∈ view.lost, cache.objectSize % objectAlign = 0

namespace Houses

variable {σ : Type} {shared : SharedHeap σ count} (h : view.Houses size shared)

include h

/-- Events that are reported change nothing. -/
theorem noted (journal : List Event) :
    view.Houses size { shared with heap := { shared.heap with journal } } :=
  ⟨h.nodup, h.aligned, h.nonzero, h.allocators, h.sound, h.lost, h.rounded⟩

theorem sound_of_mem (mem : cache ∈ view.caches) : cache.Sound size := by
  rcases mem_caches.1 mem with ⟨i, own⟩ | lost
  · exact (h.sound i).table.caches cache own
  · exact h.lost cache lost

theorem rounded_of_mem (mem : cache ∈ view.caches) : cache.objectSize % objectAlign = 0 := by
  rcases mem_caches.1 mem with ⟨i, own⟩ | lost
  · exact (h.sound i).table.rounded cache own
  · exact h.rounded cache lost

theorem regular_of_mem (mem : cache ∈ view.caches) (some : cache.slabs ≠ []) :
    cache.Regular size := by
  have le := CacheView.pages_le_sum mem
  have sound := h.sound_of_mem mem
  exact sound.regular (sound.fits some) (Multiset.nodup_of_le le h.nodup)
    (fun page held => h.aligned page (Multiset.mem_of_le le held))
    (fun page held => h.nonzero page (Multiset.mem_of_le le held))

theorem regular (i : Fin count) : (view.allocators i).table.Regular size := by
  have le : (view.allocators i).table.pages ≤ view.held := by
    rw [held_eq view i]
    exact Multiset.le_add_right _ _
  exact ⟨Multiset.nodup_of_le le h.nodup,
    fun page held => h.aligned page (Multiset.mem_of_le le held),
    fun page held => h.nonzero page (Multiset.mem_of_le le held)⟩

/-- What is known of the allocators depends on the pages taken and on the store only. -/
theorem congr {σ' : Type} {shared' : SharedHeap σ' count}
    (allocators : shared'.allocators = shared.allocators)
    (store : shared'.heap.store = shared.heap.store)
    (same : Set.EqOn shared'.heap.memory.byte shared.heap.memory.byte (size.covered view.held)) :
    view.Houses size shared' := by
  refine ⟨h.nodup, h.aligned, h.nonzero, fun i => ?_, h.sound, h.lost, h.rounded⟩
  have le : (view.allocators i).table.pages ≤ view.held := by
    rw [held_eq view i]
    exact Multiset.le_add_right _ _
  rw [allocators]
  refine ⟨(h.allocators i).table.congr (h.sound i).table (h.regular i) (same.mono ?_)
    fun _ _ => by rw [store], (h.allocators i).initialized⟩
  exact ((h.sound i).table.notes_subset_covered (h.regular i)).trans (PageSize.covered_mono le)

/-- Headers and tables are not part of the bodies, of no cache. -/
theorem notMem_notes {cache' : CacheView} {address : UInt64} (mem : cache ∈ view.caches)
    (mem' : cache' ∈ view.caches) (body : address ∈ cache.bodies size) :
    address ∉ cache'.notes size := by
  rintro ⟨page, held, noted⟩
  have some : cache'.slabs ≠ [] := by
    intro none
    rw [CacheView.pages, none] at held
    exact absurd held (Multiset.notMem_zero _)
  have regular := h.regular_of_mem mem' some
  have same := regular.fits.pageOf_of_mem_notes (regular.aligned page held) noted
  obtain rfl := CacheView.eq_of_page h.nodup mem mem' body.1 (same ▸ held)
  exact body.2 (same ▸ noted)

end Houses

/-- The pool and the allocators are as the view has them. -/
structure Describes (view : SharedView count) (shared : SharedHeap (MeteredPool size) count) :
    Prop where
  pool : view.pool.Describes view.held shared.heap.source shared.heap.memory
  allocators : ∀ i, (view.allocators i).Describes size (shared.allocators.get i) shared.heap.store
    shared.heap.memory
  sound : ∀ i, (view.allocators i).Sound size
  lost : ∀ cache ∈ view.lost, cache.Sound size
  rounded : ∀ cache ∈ view.lost, cache.objectSize % objectAlign = 0

/-- The pages taken from a pool are good ones. -/
theorem Describes.houses (h : view.Describes shared) : view.Houses size shared := by
  have nodup := h.pool.nodup
  rw [h.pool.split] at nodup
  exact ⟨(Multiset.nodup_add.1 nodup).2.1,
    fun page held => h.pool.aligned page (h.pool.mem_added_of_held held),
    fun page held => h.pool.nonzero page (h.pool.mem_added_of_held held), h.allocators, h.sound,
    h.lost, h.rounded⟩

/-- With the pool, this is all that is known of a heap. -/
theorem Houses.describes (h : view.Houses size shared)
    (pool : view.pool.Describes view.held shared.heap.source shared.heap.memory) :
    view.Describes shared :=
  ⟨pool, h.allocators, h.sound, h.lost, h.rounded⟩

namespace Describes

variable (h : view.Describes shared)

include h

theorem nodup_held : view.held.Nodup := h.houses.nodup

/-- The pages of one allocator and those of the others are apart. -/
theorem source (i : Fin count) : view.pool.Describes
    ((view.allocators i).table.pages + view.heldByOthers i) shared.heap.source
    shared.heap.memory := by
  rw [← held_eq]
  exact h.pool

theorem regular_of_mem (mem : cache ∈ view.caches) (some : cache.slabs ≠ []) :
    cache.Regular size := h.houses.regular_of_mem mem some

theorem regular (i : Fin count) : (view.allocators i).table.Regular size := h.houses.regular i

end Describes

end SharedView

end SlabHeap
