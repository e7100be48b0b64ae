import SlabHeap.Cache.Group
import SlabHeap.Proofs.CacheRefinement

/-!
# Groups of caches over any page source

Caches that share a page source hold different pages of it, so an operation of one of them
leaves what is known of the others (`PageModel.Houses.operate`), and so does a caller who writes
into an object (`PageModel.Houses.write`), and a source that changes by itself
(`PageModel.Houses.congr_source`).  With this each allocation and each free of a live object ends
and carries out the plan of its own cache, whatever the other caches do.
-/

namespace SlabHeap

namespace CacheGroup

variable {size : PageSize} {σ α : Type} {count : Nat} {group : CacheGroup σ count} {i : Fin count}
  {heap : Heap σ} {cache : Cache}

theorem onHeap_ok {operation : HeapM σ α} {a : α} (h : operation group.heap = .ok a heap) :
    onHeap operation group = .ok a { group with heap } := by
  unfold onHeap
  rw [h]

variable [PageSource σ]

theorem alloc_ok {answer : Except AllocError UInt64}
    (ends : (group.caches.get i).alloc size group.heap = .ok (answer, cache) heap) :
    alloc size i group = .ok answer { heap, caches := group.caches.set i cache i.isLt } := by
  have served : onHeap ((group.caches.get i).alloc size) group =
      .ok (answer, cache) { group with heap } := onHeap_ok ends
  unfold alloc
  rw [bind_ok get_ok, bind_ok served]
  rfl

theorem free_ok {object : UInt64}
    (ends : (group.caches.get i).free size object group.heap = .ok cache heap) :
    free size i object group = .ok () { heap, caches := group.caches.set i cache i.isLt } := by
  have served : onHeap ((group.caches.get i).free size object) group =
      .ok cache { group with heap } := onHeap_ok ends
  unfold free
  rw [bind_ok get_ok, bind_ok served]
  rfl

end CacheGroup

namespace CacheView

variable {count : Nat}

/-- Caches without a slab hold no page. -/
theorem sum_pages_fresh (sizes : Fin count → UInt64) :
    ∑ i, (CacheView.mk (sizes i) [] []).pages = 0 :=
  Finset.sum_eq_zero fun _ _ => rfl

theorem Describes.ofFn (size : PageSize) (sizes : Fin count → UInt64) (memory : Memory)
    (i : Fin count) : (CacheView.mk (sizes i) [] []).Describes size
      ((Vector.ofFn fun i => { objectSize := sizes i }).get i) memory := by
  have own : (Vector.ofFn fun i => ({ objectSize := sizes i } : Cache)).get i =
      { objectSize := sizes i } := Vector.getElem_ofFn i.isLt
  rw [own]
  exact .fresh size (sizes i) memory

end CacheView

section

variable {size : PageSize} {σ : Type} [PageSource σ] {count : Nat}

/-- The caches are as abstract caches have them, on pages that were taken from the source. -/
structure PageModel.Houses (model : PageModel size σ) (source : model.View)
    (views : Fin count → CacheView) (group : CacheGroup σ count) : Prop where
  source : model.Describes source (∑ i, (views i).pages) group.heap.source group.heap.memory
  describes : ∀ i, (views i).Describes size (group.caches.get i) group.heap.memory
  sound : ∀ i, (views i).Sound size

namespace PageModel.Houses

variable {model : PageModel size σ} {source source' : model.View} {views : Fin count → CacheView}
  {group : CacheGroup σ count} {heap : Heap σ} {cacheView : CacheView} {cache : Cache}
  {i : Fin count} {object address : UInt64}

theorem covered_subset (views : Fin count → CacheView) (i : Fin count) :
    size.covered (views i).pages ⊆ size.covered (∑ j, (views j).pages) := by
  refine PageSize.covered_mono ?_
  rw [sum_pages_eq CacheView.pages views i]
  exact Multiset.le_add_right _ _

/-- Caches without a slab. -/
theorem fresh {sizes : Fin count → UInt64} {heap : Heap σ}
    (known : model.Describes source 0 heap.source heap.memory) :
    model.Houses source (fun i => { objectSize := sizes i })
      { heap, caches := Vector.ofFn fun i => { objectSize := sizes i } } := by
  refine ⟨?_, fun i => .ofFn size sizes heap.memory i, fun i => .nil size (sizes i)⟩
  rw [CacheView.sum_pages_fresh sizes]
  exact known

variable (h : model.Houses source views group)

include h

/-- The pages of a cache and those of the others are apart. -/
theorem split_source (i : Fin count) : model.Describes source
    ((views i).pages + pagesOfOthers CacheView.pages views i) group.heap.source
    group.heap.memory := by
  have known := h.source
  rw [sum_pages_eq CacheView.pages views i] at known
  exact known

variable (fits : ∀ i, size.Fits (views i).objectSize)

include fits

theorem regular (i : Fin count) : (views i).Regular size :=
  (h.sound i).regular_of_source (fits i) (h.split_source i)

/-- An operation of one cache leaves what is known of the others. -/
theorem operate (sound : cacheView.Sound size)
    (carried : CacheView.Carried model (pagesOfOthers CacheView.pages views i) group.heap
      (views i) heap source' cacheView cache) :
    model.Houses source' (Function.update views i cacheView)
      { heap, caches := group.caches.set i cache i.isLt } := by
  refine ⟨?_, ?_, ?_⟩
  · have known := carried.source
    rw [← sum_pages_update CacheView.pages views i cacheView] at known
    exact known
  · intro j
    by_cases same : j = i
    · subst same
      simp only [Function.update_self, get_set_self]
      exact carried.describes
    · simp only [Function.update_of_ne same, get_set_of_ne _ _ same]
      refine (h.describes j).congr (fun _ => h.regular fits j) (carried.frame.mono ?_)
      refine Set.Subset.trans ?_ Set.subset_union_left
      exact (h.regular fits j).notes_subset_covered.trans
        (PageSize.covered_mono (pages_le_pagesOfOthers _ _ same))
  · intro j
    by_cases same : j = i
    · subst same
      rw [Function.update_self]
      exact sound
    · rw [Function.update_of_ne same]
      exact h.sound j

/-- An allocation changes one cache. -/
theorem alloc_served (i : Fin count) : ∃ answer cacheView group' source',
    CacheGroup.alloc size i group = .ok answer group' ∧
    ((views i).alloc size).Runs model source (answer, cacheView) source' ∧
    (views i).Allocated size answer cacheView ∧
    model.Houses source' (Function.update views i cacheView) group' := by
  obtain ⟨_, heap, ⟨answer, cacheView⟩, source', ends, runs, cache, rfl, _, carried⟩ :=
    Cache.alloc_follows (fits i) (h.sound i) (h.describes i) (h.split_source i)
  have allocated := (CacheView.alloc_always (fits i) (h.sound i)).of_runs runs
  exact ⟨answer, cacheView, _, source', CacheGroup.alloc_ok ends, runs, allocated,
    h.operate fits allocated.sound carried⟩

/-- A free changes one cache. -/
theorem free_freed (mem : object ∈ (views i).objects size) : ∃ cacheView group' source',
    CacheGroup.free size i object group = .ok () group' ∧
    ((views i).free size object).Runs model source cacheView source' ∧
    (views i).Freed size {object} cacheView ∧
    model.Houses source' (Function.update views i cacheView) group' := by
  obtain ⟨cache, heap, cacheView, source', ends, runs, carried⟩ :=
    Cache.free_follows (fits i) (h.sound i) (h.describes i) (h.split_source i) mem
  have freed :=
    (CacheView.free_always (h.regular fits i) (h.sound i) mem).of_runs runs
  exact ⟨cacheView, _, source', CacheGroup.free_ok ends, runs, freed,
    h.operate fits freed.sound carried⟩

/-- The notes of a cache are not part of the bodies of any cache. -/
theorem bodies_subset (i j : Fin count) :
    (views i).bodies size ⊆ ((views j).notes size)ᶜ := by
  have away := (h.regular fits j).subset_compl_notes (model.nodup (h.split_source j))
  by_cases same : i = j
  · subst same
    exact Set.subset_union_right.trans away
  · refine Set.Subset.trans ?_ (Set.subset_union_left.trans away)
    exact CacheView.bodies_subset_covered.trans
      (PageSize.covered_mono (pages_le_pagesOfOthers _ _ same))

/-- A write into a live object leaves what is known of the caches. -/
theorem write {values : List UInt8} (mem : object ∈ (views i).objects size)
    (inside : Memory.run address values.length ⊆ Memory.run object (views i).objectSize.toNat) :
    model.Houses source views
      { group with
        heap := { group.heap with memory := group.heap.memory.setBytes address values } } := by
  have body := inside.trans ((h.regular fits i).run_object_subset_bodies mem)
  have same := Memory.eqOn_setBytes group.heap.memory address values
  refine ⟨model.congr h.source (same.mono (Set.compl_subset_compl.2 ?_)), fun j => ?_, h.sound⟩
  · exact (body.trans CacheView.bodies_subset_covered).trans (covered_subset views i)
  · refine (h.describes j).congr (fun _ => h.regular fits j) (same.mono ?_)
    exact Set.subset_compl_comm.1 (body.trans (h.bodies_subset fits i j))

/-- Memory outside of the pages taken may change with the source. -/
theorem congr_source
    (known : model.Describes source' (∑ j, (views j).pages) heap.source heap.memory)
    (same : Set.EqOn heap.memory.byte group.heap.memory.byte
      (size.covered (∑ j, (views j).pages))) :
    model.Houses source' views { group with heap } := by
  refine ⟨known, fun j => ?_, h.sound⟩
  refine (h.describes j).congr (fun _ => h.regular fits j) (same.mono ?_)
  exact (h.regular fits j).notes_subset_covered.trans (covered_subset views j)

end PageModel.Houses

end

end SlabHeap
