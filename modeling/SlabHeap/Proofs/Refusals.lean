import SlabHeap.Proofs.AllocationStages
import SlabHeap.Proofs.Teardown

/-!
# What a refusal leaves

A page source that has no page says so, and no operation has changed anything by then but
the count of requests (`Heap.Kept`).  A cache that turns an object down is as it was, and a
class for which no cache could be created has none.

An allocation has two stages, and the second one can be refused after the first one has
created a cache.  Then the new cache is all that is left of the allocation
(`SharedHeap.AddsCache`): it is empty, in front of its bucket, and stored in one more object
of the bootstrap cache.  The heap is reachable with the same ledger as before, so nothing
that callers may do later goes wrong.
-/

namespace SlabHeap

variable {size : PageSize} {count : Nat}

/-! ## Sources that refuse -/

/-- A metered pool after it refused a request. -/
def MeteredPool.refused (metered : MeteredPool size) : MeteredPool size :=
  { metered with
    requests := metered.requests + 1
    refusal := metered.refusal.map fun refusal => { refusal with after := refusal.after - 1 } }

/-- A pool that has no page is left as it was. -/
theorem MeteredPool.passOn_refused {metered metered' : MeteredPool size} {memory memory' : Memory}
    {error : AllocError} (taken : metered.passOn memory = .ok (.error error, metered', memory')) :
    metered' = metered ∧ memory' = memory := by
  obtain ⟨⟨answer, pool, memory₁⟩, popped, ends⟩ := bind_eq_ok_iff.1 taken
  obtain ⟨top, _, popped⟩ := bind_eq_ok_iff.1 popped
  cases top with
  | none =>
    cases popped
    cases ends
    exact ⟨rfl, rfl⟩
  | some page =>
    cases popped
    cases ends

/-- A request that is refused is counted, and nothing else happens. -/
theorem MeteredPool.takePage_refused {metered metered' : MeteredPool size}
    {memory memory' : Memory} {error : AllocError}
    (taken : PageSource.takePage metered memory = .ok (.error error, metered', memory')) :
    metered' = metered.refused ∧ memory' = memory := by
  obtain ⟨pool, requests, released, refusal⟩ := metered
  rcases refusal with _ | ⟨_ | left, order⟩
  · obtain ⟨rfl, rfl⟩ := passOn_refused taken
    exact ⟨rfl, rfl⟩
  · cases taken
    exact ⟨rfl, rfl⟩
  · obtain ⟨rfl, rfl⟩ := passOn_refused taken
    exact ⟨rfl, rfl⟩

/-- After some refused requests the heap is as it was, but for the count of requests and the
journal. -/
structure Heap.Kept (asked : Nat) (heap heap' : Heap (MeteredPool size)) : Prop where
  memory : heap'.memory = heap.memory
  store : heap'.store = heap.store
  source : heap'.source = MeteredPool.refused^[asked] heap.source

section

variable {heap heap' : Heap (MeteredPool size)} {cache : Cache}
  {table table' : CacheTable} {cls : SizeClass} {ref : CacheRef} {error : AllocError} {asked : Nat}

theorem Heap.Kept.noted (kept : heap.Kept asked heap') (journal : List Event) :
    heap.Kept asked { heap' with journal } :=
  ⟨kept.memory, kept.store, kept.source⟩

theorem Heap.Kept.of_noted {journal : List Event}
    (kept : Heap.Kept asked { heap with journal } heap') : heap.Kept asked heap' :=
  ⟨kept.memory, kept.store, kept.source⟩

theorem Cache.TurnsDown.kept (turnsDown : cache.TurnsDown error heap heap') :
    heap.Kept 1 heap' := by
  obtain ⟨_, source, memory, taken, rfl⟩ := turnsDown
  obtain ⟨rfl, rfl⟩ := MeteredPool.takePage_refused taken
  exact ⟨rfl, rfl, rfl⟩

/-- Where no cache could be had, there is none, and the table is as it was. -/
theorem CacheTable.kept_of_provide
    (ends : table.provide size cls heap = .ok (.error error, table') heap') :
    table' = table ∧ (∃ asked ≤ 1, heap.Kept asked heap') ∧
      table.find heap'.store cls = .ok none := by
  have kept : table' = table ∧ ∃ asked ≤ 1, heap.Kept asked heap' ∧
      table.find heap.store cls = .ok none := by
    unfold provide at ends
    simp only [bind_ok_iff, get_ok_iff, HeapM.check_ok_iff] at ends
    obtain ⟨_, _, ⟨rfl, rfl⟩, found, _, ⟨finds, rfl⟩, ends⟩ := ends
    cases found with
    | some ref => simp at ends
    | none =>
      cases registered : table.registered with
      | true =>
        obtain ⟨same, turnsDown⟩ := turnsDown_of_create registered ends
        exact ⟨same, 1, le_refl 1, turnsDown.kept, finds⟩
      | false =>
        unfold create at ends
        rw [registered] at ends
        cases ends
        exact ⟨rfl, 0, zero_le_one, ⟨rfl, rfl, rfl⟩, finds⟩
  obtain ⟨same, asked, le, kept, finds⟩ := kept
  rw [kept.store]
  exact ⟨same, ⟨asked, le, kept⟩, finds⟩

end

/-! ## What is left of an allocation -/

/-- A shared heap got one cache more, and it is empty.  It is stored in an object that the
bootstrap cache served, perhaps from a new page, and nothing else is different: no other
allocator, no other stored cache, and no byte in a page of another cache. -/
structure SharedHeap.AddsCache (shared shared' : SharedHeap (MeteredPool size) count)
    (ledger : Ledger count) (i : Fin count) (cls : SizeClass) (storage : UInt64)
    (storages : Fin count → List UInt64) : Prop where
  listed : ∀ j : Fin count,
    (shared.allocators.get j).table.storages shared.heap.store = .ok (storages j)
  absent : (shared.allocators.get i).table.find shared.heap.store cls = .ok none
  fresh : ∀ j, storage ∉ storages j
  created : ∃ journal between, (shared.allocators.get i).table.provide size cls
      { shared.heap with journal } =
        .ok (.ok (.stored storage), (shared'.allocators.get i).table) between ∧
      between.Kept 1 shared'.heap
  found : (shared'.allocators.get i).table.find shared'.heap.store cls =
    .ok (some (.stored storage))
  cache : shared'.heap.store.read storage =
    ⟨{ objectSize := cls.size }, (shared.allocators.get i).table.buckets.get cls.bucket⟩
  buckets : (shared'.allocators.get i).table.buckets =
    (shared.allocators.get i).table.buckets.set cls.bucket (some storage) cls.bucket.isLt
  bootstrapSize : (shared'.allocators.get i).table.bootstrap.objectSize =
    (shared.allocators.get i).table.bootstrap.objectSize
  live : (shared'.allocators.get i).table.bootstrap.live.toNat =
    (shared.allocators.get i).table.bootstrap.live.toNat + 1
  pages : (shared'.allocators.get i).table.bootstrap.pages =
      (shared.allocators.get i).table.bootstrap.pages ∨
    (shared.allocators.get i).table.bootstrap.space.head = none ∧
      (shared'.allocators.get i).table.bootstrap.pages.toNat =
        (shared.allocators.get i).table.bootstrap.pages.toNat + 1
  initialized : (shared'.allocators.get i).initialized = (shared.allocators.get i).initialized
  allocators : ∀ j ≠ i, shared'.allocators.get j = shared.allocators.get j
  stored : ∀ address ≠ storage,
    shared'.heap.store.read address = shared.heap.store.read address
  bytes : ∀ object ∈ (ledger.holdings.map (·.block.address) : Multiset UInt64) +
      ∑ j, (storages j : Multiset UInt64),
    size.pageOf object ∉
        (ledger.objects i (storages i) bootstrapClass.size).map size.pageOf →
      Set.EqOn shared'.heap.memory.byte shared.heap.memory.byte (size.page (size.pageOf object))

variable {view : SharedView count} {shared shared' : SharedHeap (MeteredPool size) count}
  {ledger : Ledger count} {i : Fin count} {cls : SizeClass} {storage : UInt64}

namespace SharedView.Describes

variable (h : view.Describes shared) (fits : size.Fits maxObjectSize)
  {table : CacheTable} {journal : List Event} {between : Heap (MeteredPool size)}
  (creates : (shared.allocators.get i).table.Creates size cls { shared.heap with journal } storage
    table between)

include h fits creates

/-- Creating a cache writes in pages of the bootstrap cache, and the new cache is stored in an
object that stored no other. -/
theorem creates_frame : (∀ j, storage ∉ (view.allocators j).table.addresses) ∧
    Set.EqOn between.memory.byte shared.heap.memory.byte
      {address | size.pageOf address ∈ view.held ∧
        size.pageOf address ∉ (view.allocators i).table.bootstrap.pages} := by
  have own : (view.allocators i).table.bootstrap ∈ (view.allocators i).table.caches :=
    List.mem_cons_self
  have known : (MeteredPool.model fits.wide).Describes view.pool _ _ _ := h.source i
  rw [(TableView.focus_bootstrap _).pages_before, add_assoc] at known
  have sizes := (h.sound i).table.bootstrapSize
  have small : size.Fits (view.allocators i).table.bootstrap.objectSize := by
    rw [sizes]
    exact fits.of_le (by decide) (by decide)
  have described : (view.allocators i).table.bootstrap.Describes size
    (shared.allocators.get i).table.bootstrap ({ shared.heap with journal } : Heap _).memory :=
      (h.allocators i).table.bootstrap
  obtain ⟨_, heap', ends, cache, rfl, _, carried⟩ :=
    (Cache.alloc_follows small ((h.sound i).table.caches _ own) described known).run
  have allocated := (CacheView.alloc_always small ((h.sound i).table.caches _ own)).run view.pool
  have served := ends.symm.trans creates.served
  generalize ((view.allocators i).table.bootstrap.alloc size).run view.pool = ended at *
  obtain ⟨⟨answer, bootstrap⟩, pool⟩ := ended
  dsimp only at allocated carried served
  cases answer with
  | error error => cases served
  | ok object =>
    cases served
    rw [← allocated.objectSize] at small
    have regular := allocated.sound.regular_of_source small carried.source
    have grown : bootstrap.objects size =
        storage ::ₘ (view.allocators i).table.bootstrap.objects size := allocated.objects
    refine ⟨fun j used => ?_, fun address outside => ?_⟩
    · by_cases same : j = i
      · subst same
        have nodup := regular.nodup_objects
        rw [grown, Multiset.nodup_cons] at nodup
        exact nodup.1 (Multiset.mem_of_le (h.sound j).table.storages (Multiset.mem_coe.2 used))
      · have apart := (Multiset.nodup_add.1
          ((MeteredPool.model fits.wide).nodup carried.source)).2.2
        refine Multiset.disjoint_left.1 apart
          (regular.pageOf_mem (grown ▸ Multiset.mem_cons_self _ _)) (Multiset.mem_add.2 (.inr ?_))
        exact Multiset.mem_of_le (pages_le_heldByOthers same)
          ((h.sound j).table.pageOf_address (h.regular j) used)
    · obtain ⟨held, other⟩ := outside
      rw [held_eq view i, (TableView.focus_bootstrap _).pages_before, add_assoc] at held
      exact carried.frame (.inl ((Multiset.mem_add.1 held).resolve_left other))

end SharedView.Describes

section

variable {table table' : CacheTable} {heap between heap' : Heap (MeteredPool size)} {ref : CacheRef}
  {journal : List Event}

/-- A registered table has no cache of a class only if it is not the bootstrap class. -/
theorem CacheTable.ne_bootstrapClass_of_find {store : CacheStore}
    (registered : table.registered = true) (absent : table.find store cls = .ok none) :
    cls ≠ bootstrapClass := by
  rintro rfl
  simp [find, registered, pure, Except.pure] at absent

/-- The cache in front of its bucket is found. -/
theorem CacheTable.find_front {store : CacheStore} (other : cls ≠ bootstrapClass)
    (front : table.buckets.get cls.bucket = some storage)
    (sizes : (store.read storage).cache.objectSize = cls.size) :
    table.find store cls = .ok (some (.stored storage)) := by
  have found : store.find? cls.size (some storage) = .ok (some storage) := by
    simp [CacheStore.find?, CacheStore.chainBound, findWithin, sizes]
  rw [find, if_neg other, front, found]
  rfl

/-- A cache that was created and then could not serve is left behind, and nothing else. -/
theorem SharedView.Describes.addsCache (h : view.Describes shared)
    (fits : size.Fits maxObjectSize) (accounts : ledger.Accounts size view)
    (registered : (shared.allocators.get i).table.registered = true)
    (absent : (shared.allocators.get i).table.find shared.heap.store cls = .ok none)
    (ends : (shared.allocators.get i).table.create size cls { shared.heap with journal } =
      .ok (.ok ref, table) between) (kept : between.Kept 1 heap') :
    ∃ storage, ref = .stored storage ∧ shared.AddsCache
      { heap := heap'
        allocators := shared.allocators.set i { shared.allocators.get i with table } i.isLt }
      ledger i cls storage fun j => (view.allocators j).table.order := by
  have absent' : (shared.allocators.get i).table.find
    ({ shared.heap with journal } : Heap (MeteredPool size)).store cls = .ok none := absent
  have finds : (shared.allocators.get i).table.provide size cls { shared.heap with journal } =
      .ok (.ok ref, table) between := (CacheTable.provide_absent absent').trans ends
  obtain ⟨storage, rfl, creates⟩ := CacheTable.creates_of_create registered ends
  obtain ⟨fresh, frame⟩ := h.creates_frame fits creates
  have handsOut := creates.handsOut
  have buckets := congrArg CacheTable.buckets creates.listed
  have store := kept.store.trans creates.stored
  refine ⟨storage, rfl, {
    listed := fun j => (h.allocators j).table.storages_eq
    absent := absent
    fresh := fun j mem => fresh j ((view.allocators j).table.order_perm.mem_iff.1 mem)
    created := ⟨journal, between, by rw [get_set_self]; exact finds, kept⟩
    found := ?_
    cache := by rw [store, CacheStore.read_write, if_pos rfl]
    buckets := by rw [get_set_self]; exact buckets
    bootstrapSize := by rw [get_set_self]; exact handsOut.objectSize
    live := by rw [get_set_self]; exact handsOut.live
    pages := ?_
    initialized := by rw [get_set_self]
    allocators := fun j differ => get_set_of_ne _ _ differ
    stored := fun address differ => by rw [store, CacheStore.read_write, if_neg differ]
    bytes := fun object mem other address inside => ?_ }⟩
  · rw [get_set_self]
    refine CacheTable.find_front (CacheTable.ne_bootstrapClass_of_find registered absent) ?_ ?_
    · rw [buckets]
      exact get_set_self _ _ _
    · rw [store, CacheStore.read_write, if_pos rfl]
  · rw [get_set_self]
    cases first : (shared.allocators.get i).table.bootstrap.space.head with
    | some slab => exact .inl (handsOut.listed slab first).1
    | none => exact .inr ⟨rfl, (handsOut.opened first).1⟩
  · have held : size.pageOf object ∈ view.held := by
      rw [← accounts.dedup_pages h.houses]
      exact Multiset.mem_dedup.2 (Multiset.mem_map_of_mem _ mem)
    have page : size.pageOf address = size.pageOf object :=
      (PageSize.mem_page_iff (h.pool.aligned _ (h.pool.mem_added_of_held held))).1 inside
    rw [accounts.mem_bootstrap_pages h] at other
    rw [kept.memory]
    refine frame ?_
    rw [Set.mem_ofPred_eq, page]
    exact ⟨held, other⟩

/-- An allocation that is refused leaves nothing, or a cache that it created. -/
theorem SharedView.Describes.alloc_refused (h : view.Describes shared)
    (fits : size.Fits maxObjectSize) (accounts : ledger.Accounts size view) {bytes : UInt64}
    {error : AllocError}
    (ends : SharedHeap.serve size (.alloc i bytes) shared = .ok (.object (.error error)) shared') :
    (shared'.allocators = shared.allocators ∧ ∃ asked ≤ 1, shared.heap.Kept asked shared'.heap) ∨
    ∃ cls storage storages, SizeClass.ofRequest? bytes = some cls ∧
      shared.AddsCache shared' ledger i cls storage storages := by
  obtain ⟨_, allocator, heap', served, same, rfl⟩ := SharedHeap.exists_of_alloc ends
  cases same
  cases opened : (shared.allocators.get i).initialized with
  | false =>
    cases (Allocator.alloc_closed opened).symm.trans served
    exact .inl ⟨set_get_self _ _, 0, zero_le_one, rfl, rfl, rfl⟩
  | true =>
    cases request : SizeClass.ofRequest? bytes with
    | none =>
      cases (Allocator.alloc_tooLarge opened request).symm.trans served
      exact .inl ⟨set_get_self _ _, 0, zero_le_one, rfl, rfl, rfl⟩
    | some cls =>
      rw [Allocator.alloc_eq_allocOf opened request] at served
      rcases Allocator.exists_of_allocOf served with
        ⟨_, _, between, finds, _, rfl, rfl⟩ | ⟨ref, table, between, finds, stage⟩
      · obtain ⟨rfl, ⟨asked, le, kept⟩, _⟩ := CacheTable.kept_of_provide finds
        exact .inl ⟨set_get_self _ _, asked, le, kept.of_noted.noted _⟩
      · rcases stage with ⟨refused, serves, _, rfl⟩ | ⟨object, table', _, answer, _⟩
        · have kept := (CacheTable.turnsDown_of_allocFrom serves).kept
          have find : (shared.allocators.get i).table.find ({ shared.heap with
              journal := raisedEvents bytes ++ shared.heap.journal } : Heap _).store cls = _ :=
            (h.allocators i).table.find_eq cls
          cases found : (view.allocators i).table.find cls with
          | some ref =>
            rw [found] at find
            cases (CacheTable.provide_found find).symm.trans finds
            exact .inl ⟨set_get_self _ _, 1, le_refl 1, kept.of_noted⟩
          | none =>
            rw [found] at find
            have registered := (h.allocators i).table.registered.trans
              ((h.sound i).registered.trans ((h.allocators i).initialized.symm.trans opened))
            have created := (CacheTable.provide_absent find).symm.trans finds
            obtain ⟨storage, _, adds⟩ :=
              h.addsCache fits accounts registered find created kept
            exact .inr ⟨cls, storage, _, rfl, adds⟩
        · cases answer

end

/-- **A refusal leaves no half-done state.**  Where a cache or a table is refused a page, all is
as it was.  Where an allocation is, the heap is reachable with the same ledger, and all is as it
was but for one empty cache of the class at the most. -/
theorem SharedHeap.Reachable.refused_leaves (fits : size.Fits maxObjectSize)
    (reachable : Reachable shared ledger) (i : Fin count) :
    (∀ ref error cache heap,
      ((shared.allocators.get i).table.cache shared.heap.store ref).alloc size shared.heap =
        .ok (.error error, cache) heap →
      cache = (shared.allocators.get i).table.cache shared.heap.store ref ∧
        shared.heap.Kept 1 heap ∧ ∀ other, (shared.allocators.get i).table.cache heap.store other =
          (shared.allocators.get i).table.cache shared.heap.store other) ∧
    (∀ cls error table heap,
      (shared.allocators.get i).table.provide size cls shared.heap =
        .ok (.error error, table) heap →
      table = (shared.allocators.get i).table ∧
        (∃ asked ≤ 1, shared.heap.Kept asked heap) ∧ table.find heap.store cls = .ok none) ∧
    ∀ bytes error shared',
      SharedHeap.perform (.request (.alloc i bytes)) shared =
        .ok (.object (.error error)) shared' →
      Reachable shared' ledger ∧
      ((shared'.allocators = shared.allocators ∧
          ∃ asked ≤ 1, shared.heap.Kept asked shared'.heap) ∨
        ∃ cls storage storages, SizeClass.ofRequest? bytes = some cls ∧
          shared.AddsCache shared' ledger i cls storage storages) := by
  obtain ⟨view, h, accounts⟩ := reachable.exists_view fits
  refine ⟨fun ref error cache heap ends => ?_, fun cls error table heap ends => ?_,
    fun bytes error shared' ends => ⟨?_, ?_⟩⟩
  · obtain ⟨same, turnsDown⟩ := Cache.turnsDown_of_alloc ends
    have kept := turnsDown.kept
    refine ⟨same, kept, fun other => ?_⟩
    rw [kept.store]
  · obtain ⟨rfl, kept, absent⟩ := CacheTable.kept_of_provide ends
    exact ⟨rfl, kept, absent⟩
  · have permitted : ledger.Permits (.request (.alloc i bytes)) := trivial
    exact reachable.step permitted ends
  · exact h.alloc_refused fits accounts ends

/-- A cache is created, and the source refuses its first page. -/
theorem SharedHeap.Reachable.refused_leaves_created :
    ∃ (shared shared' : SharedHeap (MeteredPool PageSize.default) 1) (ledger : Ledger 1)
      (cls : SizeClass) (storage : UInt64) (storages : Fin 1 → List UInt64),
      Reachable shared ledger ∧
      SharedHeap.perform (.request (.alloc 0 100)) shared =
        .ok (.object (.error .invalidParam)) shared' ∧
      Reachable shared' ledger ∧ shared.AddsCache shared' ledger 0 cls storage storages := by
  have fits : PageSize.default.Fits maxObjectSize := ⟨by decide, by decide +kernel⟩
  let actions : List (Action 1) := [.request (.init 0), .addMemory 0x10010 0x4000,
    .refuse (some ⟨1, .invalidParam⟩)]
  have legal : ({} : Ledger 1).Legal (.fresh PageSize.default 1 {}) actions :=
    ⟨trivial, fun _ _ _ => ⟨nofun, fun _ _ _ => ⟨trivial, fun _ _ _ => trivial⟩⟩⟩
  obtain ⟨replies, shared, reply, shared', -, reachable, ends, tested⟩ :=
    Reachable.step_of_test fits (.start {}) legal (.request (.alloc 0 100))
      (fun _ shared reply shared' => reply = .object (.error .invalidParam) ∧
        shared'.allocators ≠ shared.allocators) (by decide +kernel)
  obtain ⟨rfl, changed⟩ := of_decide_eq_true tested
  obtain ⟨reachable', left⟩ := (reachable.refused_leaves fits 0).2.2 _ _ _ ends
  obtain ⟨cls, storage, storages, _, adds⟩ := left.resolve_left fun same => changed same.1
  exact ⟨shared, shared', _, cls, storage, storages, reachable, ends, reachable', adds⟩

end SlabHeap
