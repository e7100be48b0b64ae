import SlabHeap.Proofs.CacheView

/-!
# The blocks of several caches

A block lies in one page, behind the header and the table of the slab there
(`Block.Placed`).  Caches on different pages therefore have their blocks in
different places, and so have the slabs of one cache and the slots of one slab.
`CacheView.nodup_blocks` and `CacheView.disjoint_blocks` say so for any list of
caches whose pages are all different.
-/

namespace SlabHeap

/-- What is promised of the place of a block.  It is not at zero and it is aligned,
and its bytes are in one of the pages, behind header and table. -/
structure Block.Placed (size : PageSize) (pages : Multiset UInt64) (block : Block) : Prop where
  nonzero : block.address ≠ 0
  aligned : block.address % objectAlign = 0
  held : size.pageOf block.address ∈ pages
  inside : block.run ⊆ size.page (size.pageOf block.address) \
    size.notes block.size (size.pageOf block.address)

theorem Block.Placed.mono {size : PageSize} {pages pages' : Multiset UInt64} {block : Block}
    (h : block.Placed size pages) (le : pages ≤ pages') : block.Placed size pages' :=
  ⟨h.nonzero, h.aligned, Multiset.mem_of_le le h.held, h.inside⟩

/-- Slots of a rounded size stand at aligned addresses. -/
theorem PageSize.Fits.slotAddress_mod {size : PageSize} {objectSize base slot : UInt64}
    (fits : size.Fits objectSize) (rounded : objectSize % objectAlign = 0)
    (aligned : size.Aligned base) (inRange : slot.toNat < size.slots objectSize) :
    size.slotAddress objectSize base slot % objectAlign = 0 := by
  have unit : objectAlign.toNat = 16 := rfl
  have whole : 16 ∣ (size.slotAddress objectSize base slot).toNat := by
    rw [fits.toNat_slotAddress aligned inRange]
    exact Nat.dvd_add (aligned.dvd fits.dvd_length)
      (Nat.dvd_add (firstSlot_dvd _) ((dvd_of_rounded rounded).mul_left _))
  rw [← UInt64.toNat_inj, UInt64.toNat_mod, unit]
  exact Nat.mod_eq_zero_of_dvd whole

namespace CacheView

variable {size : PageSize} {view : CacheView} {caches : List CacheView} {block other : Block}

theorem mem_blocks : block ∈ view.blocks size ↔
    block.address ∈ view.objects size ∧ block.size = view.objectSize := by
  rw [blocks, Multiset.mem_map]
  constructor
  · rintro ⟨object, mem, rfl⟩
    exact ⟨mem, rfl⟩
  · rintro ⟨mem, sizes⟩
    exact ⟨block.address, mem, by rw [← sizes]⟩

/-- A cache with an object has a slab. -/
theorem slabs_ne_nil_of_object {object : UInt64} (mem : object ∈ view.objects size) :
    view.slabs ≠ [] := by
  intro none
  rw [objects, none] at mem
  exact absurd mem (Multiset.notMem_zero _)

theorem slabs_ne_nil (mem : block ∈ view.blocks size) : view.slabs ≠ [] :=
  slabs_ne_nil_of_object (mem_blocks.1 mem).1

namespace Regular

variable (regular : view.Regular size)

include regular

theorem nodup_blocks : (view.blocks size).Nodup :=
  regular.nodup_objects.map fun _ _ same => congrArg Block.address same

theorem disjoint_blocks (mem : block ∈ view.blocks size) (mem' : other ∈ view.blocks size)
    (differ : block ≠ other) : Disjoint block.run other.run := by
  obtain ⟨object, sizes⟩ := mem_blocks.1 mem
  obtain ⟨object', sizes'⟩ := mem_blocks.1 mem'
  have addresses : block.address ≠ other.address := by
    intro same
    cases block
    cases other
    exact differ (Block.mk.injEq .. ▸ ⟨same, sizes.trans sizes'.symm⟩)
  rw [Block.run, Block.run, sizes, sizes']
  exact regular.disjoint_objects object object' addresses

/-- The blocks of a cache are well placed. -/
theorem placed (rounded : view.objectSize % objectAlign = 0) (mem : block ∈ view.blocks size) :
    block.Placed size view.pages := by
  obtain ⟨object, sizes⟩ := mem_blocks.1 mem
  refine ⟨regular.object_ne_zero object, ?_, regular.pageOf_mem object, ?_⟩
  · obtain ⟨slab, held, slot, inRange, _, same⟩ := regular.mem_objects.1 object
    rw [← same]
    exact regular.fits.slotAddress_mod rounded (regular.aligned _ (mem_pages held)) inRange
  · rw [Block.run, sizes]
    exact regular.run_object_subset object

/-- A block lies in one of the pages of its cache. -/
theorem run_subset_covered (mem : block ∈ view.blocks size) :
    block.run ⊆ size.covered view.pages := by
  obtain ⟨object, sizes⟩ := mem_blocks.1 mem
  intro address inside
  rw [Block.run, sizes] at inside
  have page := (regular.run_object_subset object inside).1
  rw [PageSize.mem_page_iff (size.pageOf_aligned _)] at page
  exact (show size.pageOf address ∈ view.pages from page ▸ regular.pageOf_mem object)

end Regular

/-! ## Caches on different pages -/

theorem mem_sum {α : Type} {f : CacheView → Multiset α} {a : α} :
    a ∈ (caches.map f).sum ↔ ∃ cache ∈ caches, a ∈ f cache := by
  induction caches with
  | nil => simp
  | cons cache caches ih =>
    rw [List.map_cons, List.sum_cons, Multiset.mem_add, ih, List.exists_mem_cons_iff]

theorem pages_le_sum (mem : view ∈ caches) : view.pages ≤ (caches.map pages).sum :=
  Multiset.le_sum_of_mem (Multiset.mem_coe.2 (List.mem_map_of_mem mem))

/-- A page belongs to one cache. -/
theorem eq_of_page {page : UInt64} {view' : CacheView} (nodup : (caches.map pages).sum.Nodup)
    (mem : view ∈ caches) (mem' : view' ∈ caches) (held : page ∈ view.pages)
    (held' : page ∈ view'.pages) : view = view' := by
  induction caches with
  | nil => cases mem
  | cons cache caches ih =>
    rw [List.map_cons, List.sum_cons, Multiset.nodup_add] at nodup
    rcases List.mem_cons.1 mem with rfl | later
    · rcases List.mem_cons.1 mem' with rfl | later'
      · rfl
      · exact absurd (Multiset.mem_of_le (pages_le_sum later') held')
          (Multiset.disjoint_left.1 nodup.2.2 held)
    · rcases List.mem_cons.1 mem' with rfl | later'
      · exact absurd (Multiset.mem_of_le (pages_le_sum later) held)
          (Multiset.disjoint_left.1 nodup.2.2 held')
      · exact ih nodup.2.1 later later'

variable (regular : ∀ cache ∈ caches, cache.slabs ≠ [] → cache.Regular size)

include regular

theorem sum_blocks_subset_covered (mem : block ∈ (caches.map (blocks size)).sum) :
    block.run ⊆ size.covered (caches.map pages).sum := by
  obtain ⟨cache, held, own⟩ := mem_sum.1 mem
  exact ((regular cache held (slabs_ne_nil own)).run_subset_covered own).trans
    (PageSize.covered_mono (pages_le_sum held))

variable (nodup : (caches.map pages).sum.Nodup)

include nodup

/-- Different blocks are in different places. -/
theorem disjoint_blocks (mem : block ∈ (caches.map (blocks size)).sum)
    (mem' : other ∈ (caches.map (blocks size)).sum) (differ : block ≠ other) :
    Disjoint block.run other.run := by
  induction caches with
  | nil => exact absurd mem (Multiset.notMem_zero _)
  | cons cache caches ih =>
    rw [List.map_cons, List.sum_cons, Multiset.mem_add] at mem mem'
    rw [List.map_cons, List.sum_cons, Multiset.nodup_add] at nodup
    have later : ∀ cache ∈ caches, cache.slabs ≠ [] → cache.Regular size :=
      fun cache mem => regular cache (.tail _ mem)
    have apart {first second : Block} (own : first ∈ cache.blocks size)
        (others : second ∈ (caches.map (blocks size)).sum) : Disjoint first.run second.run := by
      have own := (regular cache List.mem_cons_self (slabs_ne_nil own)).run_subset_covered own
      have others := sum_blocks_subset_covered later others
      exact Set.disjoint_left.2 fun address inside inside' =>
        Multiset.disjoint_left.1 nodup.2.2 (own inside) (others inside')
    rcases mem with own | others
    · rcases mem' with own' | others'
      · exact (regular cache List.mem_cons_self (slabs_ne_nil own)).disjoint_blocks own own' differ
      · exact apart own others'
    · rcases mem' with own' | others'
      · exact (apart own' others).symm
      · exact ih later nodup.2.1 others others'

/-- No block is there twice. -/
theorem nodup_blocks : (caches.map (blocks size)).sum.Nodup := by
  induction caches with
  | nil => exact Multiset.nodup_zero
  | cons cache caches ih =>
    rw [List.map_cons, List.sum_cons, Multiset.nodup_add] at nodup
    have later : ∀ cache ∈ caches, cache.slabs ≠ [] → cache.Regular size :=
      fun cache mem => regular cache (.tail _ mem)
    rw [List.map_cons, List.sum_cons, Multiset.nodup_add]
    refine ⟨?_, ih later nodup.2.1, Multiset.disjoint_left.2 fun {block} own others => ?_⟩
    · by_cases bare : cache.slabs = []
      · have empty : cache.blocks size = 0 := by
          rw [blocks, objects, bare]
          rfl
        rw [empty]
        exact Multiset.nodup_zero
      · exact (regular cache List.mem_cons_self bare).nodup_blocks
    · have regular := regular cache List.mem_cons_self (slabs_ne_nil own)
      have held := regular.pageOf_mem (mem_blocks.1 own).1
      obtain ⟨other, listed, own'⟩ := mem_sum.1 others
      have held' := (later other listed (slabs_ne_nil own')).pageOf_mem (mem_blocks.1 own').1
      exact Multiset.disjoint_left.1 nodup.2.2 held
        (Multiset.mem_of_le (pages_le_sum listed) held')

end CacheView

end SlabHeap
