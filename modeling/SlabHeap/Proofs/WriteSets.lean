import SlabHeap.Proofs.AllocationStages
import SlabHeap.Proofs.FoundCaches
import SlabHeap.Proofs.Relied
import SlabHeap.Proofs.RoundTrips

/-!
# What serving and freeing write

Serving an object from the slab in front writes to the fields of that slab.  Putting an object
back writes to the fields of its slab and to one table byte, if the slab is full or in front: no
other slab is linked anew then.  The rest of the memory is as it was, also the objects, and also
the links of full slabs, of which nothing else is known.

A metered pool writes to a page that is given back, and nowhere when a page is taken.
-/

namespace SlabHeap

/-! ## Slabs and lists -/

theorem Memory.eq_of_mem_run_one {a b : UInt64} (inside : b ∈ run a 1) : b = a := by
  have zero : b - a = 0 := UInt64.toNat_inj.1 (Nat.lt_one_iff.1 inside)
  grind

section

variable {slab : Slab} {memory memory' : Memory} {list list' : SpaceList} {slot : UInt64}

/-- The fields of a slab with a free slot are all relied on. -/
theorem Slab.run_subset_relied (slab : Slab) {free : List UInt64} (some : free ≠ []) :
    Memory.run slab.base fieldBytes ⊆ slab.relied free := by
  intro address inside
  rw [Memory.mem_run] at inside
  have last : fieldBytes = 26 := rfl
  have offset (field : Field) : (address - slab.fieldAddress field).toNat =
      (2 ^ 64 + (address - slab.base).toNat - field.offset.toNat) % 2 ^ 64 := by
    have split : address - slab.fieldAddress field = (address - slab.base) - field.offset := by
      rw [fieldAddress]
      grind
    have small := field.offset_add_width_le
    rw [split, UInt64.toNat_sub]
    omega
  have within (field : Field) (start : field.offset.toNat ≤ (address - slab.base).toNat)
      (stop : (address - slab.base).toNat < field.offset.toNat + field.width) :
      address ∈ slab.relied free := by
    refine .inl ⟨field, fun _ => some, ?_⟩
    have bound := (address - slab.base).toNat_lt
    rw [Memory.mem_run, offset]
    omega
  by_cases next : (address - slab.base).toNat < 8
  · exact within .next (Nat.zero_le _) next
  by_cases objectSize : (address - slab.base).toNat < 16
  · exact within .objectSize (Nat.le_of_not_lt next) objectSize
  by_cases objectBase : (address - slab.base).toNat < 24
  · exact within .objectBase (Nat.le_of_not_lt objectSize) objectBase
  by_cases head : (address - slab.base).toNat < 25
  · exact within .head (Nat.le_of_not_lt objectBase) head
  · exact within .live (Nat.le_of_not_lt head) inside

theorem Slab.eqOn_fields_setNext (slab : Slab) (memory : Memory) (next : Option Slab) :
    Set.EqOn (slab.setNext memory next).byte memory.byte (Memory.run slab.base fieldBytes)ᶜ :=
  (eqOn_setNext slab memory next).mono (Set.compl_subset_compl.2 (Memory.run_mono (by decide)))

theorem Slab.eqOn_of_take {answer : Option UInt64}
    (taken : slab.take memory = .ok (answer, memory')) :
    Set.EqOn memory'.byte memory.byte (Memory.run slab.base fieldBytes)ᶜ := by
  unfold take at taken
  split at taken
  · cases taken
    exact fun _ _ => rfl
  · simp only [bind_eq_ok_iff] at taken
    obtain ⟨_, _, _, _, _, _, ends⟩ := taken
    cases ends
    exact eqOn_setCounters _ _ _ _

theorem Slab.eqOn_of_release (released : slab.release memory slot = .ok memory') :
    Set.EqOn memory'.byte memory.byte
      (Memory.run slab.base fieldBytes ∪ {slab.entryAddress slot})ᶜ := by
  unfold release at released
  split at released
  · obtain ⟨linked, written, ends⟩ := bind_eq_ok_iff.1 released
    obtain ⟨_, rfl⟩ := slab.writeEntry_eq_ok_iff.1 written
    cases ends
    rw [Set.compl_union]
    refine ((eqOn_setCounters slab _ _ _).mono Set.inter_subset_left).trans
      ((eqOn_setEntry slab _ slot _).mono ?_)
    rintro address ⟨_, other⟩ inside
    exact other (Memory.eq_of_mem_run_one inside)
  · cases released

theorem Slab.release_of_ok {nothing : Unit}
    (released : (do return ((), ← slab.release memory slot) : Except Fault (Unit × Memory)) =
      .ok (nothing, memory')) : slab.release memory slot = .ok memory' := by
  obtain ⟨memory, ends, same⟩ := bind_eq_ok_iff.1 released
  cases same
  exact ends

theorem SpaceList.eqOn_of_pushFront (pushed : list.pushFront memory slab = .ok (list', memory')) :
    list'.head = some slab ∧
      Set.EqOn memory'.byte memory.byte (Memory.run slab.base Slab.fieldBytes)ᶜ := by
  unfold pushFront at pushed
  simp only [bind, Except.bind] at pushed
  split at pushed
  · cases pushed
  · cases pushed
    exact ⟨rfl, slab.eqOn_fields_setNext _ _⟩

theorem SpaceList.eqOn_of_popFront {first : Option Slab} (front : list.head = some slab)
    (popped : list.popFront memory = .ok ((first, list'), memory')) :
    Set.EqOn memory'.byte memory.byte (Memory.run slab.base Slab.fieldBytes)ᶜ := by
  unfold popFront at popped
  rw [front] at popped
  simp only [bind, Except.bind] at popped
  split at popped
  · cases popped
  · cases popped
    exact slab.eqOn_fields_setNext _ _

/-- Taking the slab in front off the list writes to its own link. -/
theorem SpaceList.eqOn_of_remove {listed : Bool} (front : list.head = some slab)
    (removed : list.remove memory slab = .ok ((listed, list'), memory')) :
    Set.EqOn memory'.byte memory.byte (Memory.run slab.base Slab.fieldBytes)ᶜ := by
  unfold remove at removed
  rw [if_pos front] at removed
  simp only [bind, Except.bind] at removed
  split at removed
  · cases removed
  · rename_i result popped
    cases removed
    exact eqOn_of_popFront front popped

end

/-! ## Caches -/

namespace Cache

variable {size : PageSize} {σ : Type} [PageSource σ] {heap heap' between : Heap σ}
  {cache cache' opened : Cache} {object slot : UInt64} {slab : Slab} {memory : Memory}

/-- Serving from an open slab writes to its fields. -/
theorem exists_open_of_alloc (ends : cache.alloc size heap = .ok (.ok object, cache') heap') :
    ∃ slab opened between, cache.openSlab size heap = .ok (.ok slab, opened) between ∧
      (opened.space.head = some slab → Set.EqOn heap'.memory.byte between.memory.byte
        (Memory.run slab.base Slab.fieldBytes)ᶜ) := by
  rcases exists_of_alloc ends with ⟨_, _, other⟩ | ⟨slab, opened, between, _, opens, _, takes⟩
  · cases other
  · refine ⟨slab, opened, between, opens, fun front => ?_⟩
    obtain ⟨taken, took, same | ⟨first, popped⟩⟩ := takes.memory
    · rw [same]
      exact Slab.eqOn_of_take took
    · exact (SpaceList.eqOn_of_popFront front popped).trans (Slab.eqOn_of_take took)

/-- Serving from the slab in front writes to its fields. -/
theorem eqOn_of_alloc_listed (front : cache.space.head = some slab)
    (ends : cache.alloc size heap = .ok (.ok object, cache') heap') :
    Set.EqOn heap'.memory.byte heap.memory.byte (Memory.run slab.base Slab.fieldBytes)ᶜ := by
  obtain ⟨_, _, _, opens, same⟩ := exists_open_of_alloc ends
  rw [openSlab_of_head front] at opens
  cases opens
  exact same front

/-- Serving from a page of the source writes to the page. -/
theorem exists_page_of_alloc (empty : cache.space.head = none)
    (fits : size.Fits cache.objectSize)
    (ends : cache.alloc size heap = .ok (.ok object, cache') heap') :
    ∃ page source memory, PageSource.takePage heap.source heap.memory =
        .ok (.ok page, source, memory) ∧
      (size.Aligned page →
        Set.EqOn heap'.memory.byte memory.byte (size.notes cache.objectSize page)ᶜ) := by
  obtain ⟨slab, opened, between, opens, same⟩ := exists_open_of_alloc ends
  unfold openSlab at opens
  simp only [empty, bind_ok_iff, HeapM.takePage_ok_iff] at opens
  obtain ⟨answer, _, ⟨source, memory, taken, rfl⟩, opens⟩ := opens
  cases answer with
  | error refused => simp at opens
  | ok page =>
    simp only [bind_ok_iff, HeapM.inMemory_ok_iff, HeapM.check_ok_iff, pure_ok_iff,
      Except.ok.injEq, Prod.mk.injEq] at opens
    obtain ⟨_, _, ⟨memory₁, carved, rfl⟩, _, _, ⟨memory₂, pushed, rfl⟩, pages, _, ⟨_, rfl⟩,
      ⟨rfl, rfl⟩, rfl⟩ := opens
    refine ⟨page, source, memory, taken, fun aligned => ?_⟩
    obtain ⟨_, carved', _, outside⟩ := carve_describes fits aligned memory
    cases carved.symm.trans carved'
    obtain ⟨front, linked⟩ := SpaceList.eqOn_of_pushFront pushed
    have fields := Set.compl_subset_compl.2 (size.fields_subset_notes cache.objectSize page)
    exact (((same front).trans linked).mono fields).trans outside

/-- Taking the slab in front off the list writes to its fields, and then its page is given
back. -/
theorem exists_memory_of_settle (front : cache.space.head = some slab)
    (ends : cache.settle slab heap = .ok cache' heap') :
    ∃ memory, Set.EqOn memory.byte heap.memory.byte (Memory.run slab.base Slab.fieldBytes)ᶜ ∧
      (heap'.memory = memory ∨ ∃ source,
        PageSource.givePage slab.base heap.source memory = .ok (source, heap'.memory)) := by
  unfold settle at ends
  simp only [bind_ok_iff, HeapM.memory_ok_iff] at ends
  obtain ⟨_, _, ⟨rfl, rfl⟩, ends⟩ := ends
  split at ends
  · simp only [bind_ok_iff, HeapM.inMemory_ok_iff] at ends
    obtain ⟨⟨listed, space⟩, _, ⟨memory, removed, rfl⟩, ends⟩ := ends
    refine ⟨memory, SpaceList.eqOn_of_remove front removed, .inr ?_⟩
    split at ends
    · simp only [bind_ok_iff, HeapM.givePage_ok_iff, HeapM.check_ok_iff, pure_ok_iff] at ends
      obtain ⟨_, _, ⟨source, _, given, rfl⟩, _, _, ⟨_, rfl⟩, _, rfl⟩ := ends
      exact ⟨source, given⟩
    · simp at ends
  · simp only [pure_ok_iff] at ends
    obtain ⟨_, rfl⟩ := ends
    exact ⟨_, fun _ _ => rfl, .inl rfl⟩

/-- Putting an object back into a slab that is full or in front writes to its fields and to the
table byte of the slot, and then the page may be given back. -/
theorem exists_memory_of_free
    (front : slab.isFull heap.memory = true ∨ cache.space.head = some slab)
    (inSlab : Slab.containing object size.bytes = .ok slab)
    (inSlot : slab.slotOf heap.memory object = .ok slot)
    (ends : cache.free size object heap = .ok cache' heap') :
    ∃ memory, Set.EqOn memory.byte heap.memory.byte
        (Memory.run slab.base Slab.fieldBytes ∪ {slab.entryAddress slot})ᶜ ∧
      (heap'.memory = memory ∨ ∃ source,
        PageSource.givePage slab.base heap.source memory = .ok (source, heap'.memory)) := by
  -- with the slab in front of the list, the slot is released
  have finish (listed : Cache) {memory : Memory} (first : listed.space.head = some slab)
      (same : Set.EqOn memory.byte heap.memory.byte (Memory.run slab.base Slab.fieldBytes)ᶜ)
      (rest : (do
        HeapM.inMemory fun memory => return ((), ← slab.release memory slot)
        listed.settle slab : HeapM σ Cache) { heap with memory } = .ok cache' heap') :
      ∃ memory, Set.EqOn memory.byte heap.memory.byte
          (Memory.run slab.base Slab.fieldBytes ∪ {slab.entryAddress slot})ᶜ ∧
        (heap'.memory = memory ∨ ∃ source,
          PageSource.givePage slab.base heap.source memory = .ok (source, heap'.memory)) := by
    simp only [bind_ok_iff, HeapM.inMemory_ok_iff] at rest
    obtain ⟨_, _, ⟨memory₁, released, rfl⟩, rest⟩ := rest
    obtain ⟨memory₂, settled, ended⟩ := exists_memory_of_settle first rest
    have released := Slab.eqOn_of_release (Slab.release_of_ok released)
    have fields : (Memory.run slab.base Slab.fieldBytes ∪ {slab.entryAddress slot})ᶜ ⊆
        (Memory.run slab.base Slab.fieldBytes)ᶜ :=
      Set.compl_subset_compl.2 Set.subset_union_left
    exact ⟨memory₂, ((settled.mono fields).trans released).trans (same.mono fields), ended⟩
  unfold free at ends
  simp only [bind_ok_iff, HeapM.check_ok_iff, HeapM.memory_ok_iff, inSlab, Except.ok.injEq] at ends
  obtain ⟨_, _, ⟨rfl, rfl⟩, _, _, ⟨rfl, rfl⟩, _, _, ⟨inSlot', rfl⟩, ends⟩ := ends
  cases inSlot.symm.trans inSlot'
  split at ends
  · simp at ends
  · obtain ⟨_, _, read, ends⟩ := bind_ok_iff.1 ends
    obtain ⟨rfl, rfl⟩ := HeapM.memory_ok_iff.1 read
    split at ends
    · obtain ⟨space, _, links, ends⟩ := bind_ok_iff.1 ends
      obtain ⟨memory, pushed, rfl⟩ := HeapM.inMemory_ok_iff.1 links
      obtain ⟨first, same⟩ := SpaceList.eqOn_of_pushFront pushed
      exact finish { cache with space, live := cache.live - 1 } first same ends
    · rename_i room
      have first : cache.space.head = some slab := front.resolve_left room
      exact finish { cache with live := cache.live - 1 } first (fun _ _ => rfl) ends

end Cache

/-! ## As the view has it -/

/-- A page that is given back to a metered pool is linked. -/
theorem MeteredPool.eqOn_of_givePage {size : PageSize} {metered metered' : MeteredPool size}
    {memory memory' : Memory} {page : UInt64}
    (given : PageSource.givePage page metered memory = .ok (metered', memory')) :
    Set.EqOn memory'.byte memory.byte (Memory.run page 8)ᶜ := by
  obtain ⟨⟨pool, memory₁⟩, pushed, same⟩ := bind_eq_ok_iff.1 given
  cases same
  obtain ⟨aligned, _, pushed⟩ := bind_eq_ok_iff.1 pushed
  dsimp only at pushed
  split at pushed
  · obtain ⟨free, _, ends⟩ := bind_eq_ok_iff.1 pushed
    cases ends
    exact Memory.eqOn_setWord _ _ _
  · cases pushed

namespace CacheView

variable {size : PageSize} {view view' : CacheView} {cache cache' : Cache}
  {heap heap' : Heap (MeteredPool size)} {pool : PoolView} {held : Multiset UInt64}
  {object base slot : UInt64} {free : List UInt64} {rest : List SlabView}

/-- Serving writes to what the cache relies on, or to a free page. -/
theorem Describes.eqOn_of_alloc (h : view.Describes size cache heap.memory)
    (sound : view.Sound size) (fits : size.Fits view.objectSize)
    (known : pool.Describes held heap.source heap.memory)
    (ends : cache.alloc size heap = .ok (.ok object, cache') heap') :
    Set.EqOn heap'.memory.byte heap.memory.byte (view.relied ∪ size.covered pool.free)ᶜ := by
  have head := h.space.1
  rcases room : view.room with _ | ⟨slab, rest⟩
  · rw [room] at head
    obtain ⟨page, source, memory, taken, same⟩ :=
      Cache.exists_page_of_alloc head (h.objectSize ▸ fits) ends
    obtain ⟨_, answer, _⟩ := known.take fits.wide
    rw [taken, Except.ok.injEq, Prod.mk.injEq, Prod.mk.injEq] at answer
    obtain ⟨answered, _, rfl⟩ := answer
    obtain ⟨top, _⟩ := PoolView.take_ok (Prod.ext answered.symm rfl)
    have mem : page ∈ pool.free := top ▸ List.mem_cons_self
    have aligned := known.aligned page (known.mem_added_of_free mem)
    refine (same aligned).mono (Set.compl_subset_compl.2 fun address noted => .inr ?_)
    rw [h.objectSize] at noted
    have inPage := fits.pageOf_of_mem_notes aligned noted
    exact Multiset.mem_coe.2 (inPage ▸ mem)
  · have listed : slab ∈ view.room := room ▸ List.mem_cons_self
    rw [room] at head
    refine (Cache.eqOn_of_alloc_listed head.1 ends).mono (Set.compl_subset_compl.2 ?_)
    exact (slab.slab.run_subset_relied (sound.free slab listed)).trans
      ((relied_subset (List.mem_append_left _ listed)).trans Set.subset_union_left)

/-- Putting back the object that was served last writes to what was relied on before. -/
theorem Describes.eqOn_of_free {opened : CacheView} (regular : opened.Regular size)
    (first : opened.room = ⟨base, slot :: free⟩ :: rest)
    (h : (opened.serve size).2.Describes size cache heap.memory)
    (ends : cache.free size (opened.serve size).1 heap = .ok cache' heap') :
    Set.EqOn heap'.memory.byte heap.memory.byte ((Slab.mk base).relied (slot :: free))ᶜ := by
  have held : SlabView.mk base (slot :: free) ∈ opened.slabs :=
    List.mem_append_left _ (first ▸ List.mem_cons_self)
  have inRange := (regular.slabs _ held).inRange slot List.mem_cons_self
  have page := regular.pageOf_serve first
  have left : (opened.serve size).2 =
      ({ opened with room := ⟨base, free⟩ :: rest } : CacheView).retire := by
    rw [serve, first]
  have object : (opened.serve size).1 = size.slotAddress opened.objectSize base slot := by
    rw [serve, first]
  have sizes : (opened.serve size).2.objectSize = opened.objectSize := left ▸ retire_objectSize
  have kept : SlabView.mk base free ∈ (opened.serve size).2.slabs := by
    rw [left]
    exact slabs_retire.mem_iff.2 (List.mem_append_left _ List.mem_cons_self)
  have described := h.slabs _ kept
  rw [sizes] at described
  have inSlot := described.slotOf_eq regular.fits inRange
  rw [← object] at inSlot
  have inSlab := Slab.containing_eq size (opened.serve size).1
  rw [page] at inSlab
  have front : (Slab.mk base).isFull heap.memory = true ∨ cache.space.head = some ⟨base⟩ := by
    cases free with
    | nil => exact .inl (described.isFull_iff.2 rfl)
    | cons other free =>
      have head := h.space.1
      rw [left] at head
      exact .inr head.1
  obtain ⟨memory, wrote, ended⟩ := Cache.exists_memory_of_free front inSlab inSlot ends
  have some : slot :: free ≠ [] := List.cons_ne_nil _ _
  have fields := (Slab.mk base).run_subset_relied some
  have writes : Memory.run (Slab.mk base).base Slab.fieldBytes ∪
      {(Slab.mk base).entryAddress slot} ⊆ (Slab.mk base).relied (slot :: free) :=
    Set.union_subset fields fun address same => .inr ⟨slot, List.mem_cons_self, same.symm⟩
  have wrote := wrote.mono (Set.compl_subset_compl.2 writes)
  rcases ended with kept | ⟨source, given⟩
  · rw [kept]
    exact wrote
  · refine ((MeteredPool.eqOn_of_givePage given).mono ?_).trans wrote
    exact Set.compl_subset_compl.2 (Slab.link_subset_relied _ some)

/-- Putting back the object that was served last writes to what was relied on before it was
served, or to a page that was free then. -/
theorem Describes.eqOn_of_free_served {pool' : PoolView} (sound : view.Sound size)
    (regular : view.Regular size)
    (opened : ∀ page ∈ pool.free, (view.openSlab size page).Regular size)
    (run : (view.alloc size).run pool = ((.ok object, view'), pool'))
    (h : view'.Describes size cache heap.memory)
    (ends : cache.free size object heap = .ok cache' heap') :
    Set.EqOn heap'.memory.byte heap.memory.byte (view.relied ∪ size.covered pool.free)ᶜ := by
  rcases exists_of_run_alloc sound run with
    ⟨base, slot, free, rest, first, served, rfl⟩ | ⟨empty, page, taken, served⟩
  · obtain ⟨rfl, rfl⟩ := Prod.mk.inj served.symm
    refine (h.eqOn_of_free regular first ends).mono (Set.compl_subset_compl.2 ?_)
    have held : SlabView.mk base (slot :: free) ∈ view.slabs :=
      List.mem_append_left _ (first ▸ List.mem_cons_self)
    exact (relied_subset held).trans Set.subset_union_left
  · obtain ⟨rfl, rfl⟩ := Prod.mk.inj served.symm
    have mem : page ∈ pool.free := (PoolView.take_ok taken).1 ▸ List.mem_cons_self
    have regular' := opened page mem
    obtain ⟨slot, free, first, fresh, _⟩ := openSlab_front regular.fits empty page
    refine (h.eqOn_of_free regular' first ends).mono (Set.compl_subset_compl.2 ?_)
    have aligned := regular'.aligned page
      (show page ∈ page ::ₘ view.pages from Multiset.mem_cons_self page _)
    intro address inside
    have noted := SlabView.relied_subset_notes regular.fits fresh inside
    have inPage := regular.fits.pageOf_of_mem_notes aligned noted
    exact .inr (Multiset.mem_coe.2 (inPage ▸ mem))

end CacheView

/-! ## Requests -/

namespace SharedView

variable {size : PageSize} {count : Nat} {view : SharedView count}
  {shared shared' : SharedHeap (MeteredPool size) count} {i : Fin count} {ref : CacheRef}
  {bytes object base : UInt64}

section

variable (h : view.Describes shared) (finds : view.Finds i bytes ref)

include h finds

/-- An object is served by the cache of its size. -/
theorem Describes.exists_cache_of_alloc
    (ends : SharedHeap.perform (.request (.alloc i bytes)) shared =
      .ok (.object (.ok object)) shared') :
    ∃ cache cache' heap heap', (view.cache i ref).Describes size cache heap.memory ∧
      heap.memory = shared.heap.memory ∧ heap.source = shared.heap.source ∧
      cache.alloc size heap = .ok (.ok object, cache') heap' ∧
      heap'.memory = shared'.heap.memory := by
  have has := finds.has h.sound h.regular
  obtain ⟨cls, request, found⟩ := finds.found
  obtain ⟨answer, allocator, heap, served, same, rfl⟩ := SharedHeap.exists_of_alloc ends
  cases same
  have opened := (h.allocators i).initialized.trans finds.opened
  rw [Allocator.alloc_eq_allocOf opened request] at served
  have finding : (shared.allocators.get i).table.find
      ({ shared.heap with journal := raisedEvents bytes ++ shared.heap.journal } :
        Heap (MeteredPool size)).store cls = .ok (some ref) :=
    ((h.allocators i).table.find_eq cls).trans (congrArg _ found)
  rcases Allocator.exists_of_allocOf served with
    ⟨_, _, _, refused, _⟩ | ⟨ref', table, between, finds', served⟩
  · rw [CacheTable.provide_found finding] at refused
    cases refused
  · rw [CacheTable.provide_found finding] at finds'
    cases finds'
    rcases served with ⟨_, _, other, _⟩ | ⟨object', table', serves, same, _⟩
    · cases other
    · cases same
      obtain ⟨cache, between, handed, _, rfl⟩ := CacheTable.exists_of_allocFrom serves
      exact ⟨_, cache, { shared.heap with
        journal := raisedEvents bytes ++ shared.heap.journal }, between,
        (h.allocators i).table.cacheOf (h.sound i).table (h.regular i) has, rfl, rfl, handed, rfl⟩

/-- An object is put back into the cache of its page. -/
theorem Describes.exists_cache_of_free (own : object ∈ (view.cache i ref).objects size)
    (ends : SharedHeap.perform (.request (.free i object)) shared = .ok .done shared') :
    ∃ cache cache' heap', (view.cache i ref).Describes size cache shared.heap.memory ∧
      cache.free size object shared.heap = .ok cache' heap' ∧
      heap'.memory = shared'.heap.memory := by
  have has := finds.has h.sound h.regular
  have held := finds.mem_caches h.sound h.regular
  have described := (h.allocators i).table.cacheOf (h.sound i).table (h.regular i) has
  have regular := (h.sound i).table.regular_of_mem (h.regular i) held
    (CacheView.slabs_ne_nil_of_object own)
  obtain ⟨cls, _, found⟩ := finds.found
  have sizes := (TableView.find_some (h.sound i).table (h.regular i) found).2
  have noted : (Slab.mk (size.pageOf object)).objectSize shared.heap.memory = cls.size := by
    obtain ⟨slab, listed, base⟩ := List.mem_map.1 (Multiset.mem_coe.1 (regular.pageOf_mem own))
    have noted := (described.slabs slab listed).sizeNoted
    rw [SlabView.slab, base] at noted
    exact noted.trans sizes
  have opened := (h.allocators i).initialized.trans finds.opened
  unfold SharedHeap.perform SharedHeap.serve at ends
  obtain ⟨allocator, heap, operated, rfl⟩ := SharedHeap.exists_of_onAllocator ends
  simp only [Allocator.free, opened, if_true, bind_ok_iff, HeapM.check_ok_iff, HeapM.memory_ok_iff,
    get_ok_iff, Slab.containing_eq, Except.ok.injEq] at operated
  obtain ⟨_, _, ⟨_, _, ⟨rfl, rfl⟩, _, _, ⟨rfl, rfl⟩, cls', _, ⟨rounded, rfl⟩, _, _, ⟨rfl, rfl⟩,
    ref?, _, ⟨finding, rfl⟩, freed⟩, last⟩ := operated
  rw [noted, SizeClass.ofRounded, dif_pos cls.rounded] at rounded
  cases rounded
  rw [(h.allocators i).table.find_eq, found] at finding
  cases finding
  simp only [CacheTable.freeTo, CacheTable.setCache_ok, bind_ok_iff, get_ok_iff, pure_ok_iff,
    EStateM.Result.ok.injEq] at freed last
  obtain ⟨_, _, ⟨_, _, ⟨rfl, rfl⟩, cache, between, freed, _, rfl⟩, _, rfl⟩ := freed
  obtain ⟨_, rfl⟩ := last
  exact ⟨_, cache, between, described, freed, rfl⟩

/-- Serving writes to what the cache relies on, or to a free page. -/
theorem Describes.eqOn_of_alloc (fits : size.Fits maxObjectSize)
    (ends : SharedHeap.perform (.request (.alloc i bytes)) shared =
      .ok (.object (.ok object)) shared') :
    Set.EqOn shared'.heap.memory.byte shared.heap.memory.byte
      ((view.cache i ref).relied ∪ size.covered view.pool.free)ᶜ := by
  obtain ⟨cache, cache', heap, heap', described, memory, source, served, same⟩ :=
    h.exists_cache_of_alloc finds ends
  have known := h.pool
  rw [← source, ← memory] at known
  rw [← memory, ← same]
  exact described.eqOn_of_alloc (h.sound_cache finds) (h.fits_cache finds fits) known served

end

end SharedView

end SlabHeap
