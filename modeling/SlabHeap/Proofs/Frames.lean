import SlabHeap.Proofs.Aliasing
import SlabHeap.Proofs.Relied

/-!
# Objects keep their bytes

Allocators share pages with their callers.  Headers and tables stand in front of the
objects, the links of free pages in pages that held objects before, and caches are
stored in objects.  None of what they write is in an object that a caller holds.

An action leaves the bodies alone that slabs have before it and after it
(`SharedView.Spares`), and it stores caches in objects of its own only.  For the
allocators this is the frame of their tables (`TableView.Carried`); the pages of all
others are covered by it.  What a caller holds before and after lies in such bodies,
apart from all objects that store caches (`SharedHeap.Reachable.perform_leaves`).
Nor does an action depend on a record at such an address, whatever it is, or replace it
(`SharedHeap.Ignores`).

The objects that caches are stored in lie in the bodies too.  No byte of theirs is
written while a cache is there (`SharedHeap.Reachable.run_leaves_storages`), so it makes
no difference that the records are kept apart from the bytes.
-/

namespace SlabHeap

variable {size : PageSize} {count : Nat} {view view' : SharedView count}
  {shared shared' : SharedHeap (MeteredPool size) count} {ledger : Ledger count} {i : Fin count}
  {action : Action count}

/-- The bytes that a caller writes. -/
def Action.written : Action count → Set UInt64
  | .request (.write address values) => Memory.run address values.length
  | _ => ∅

/-! ## Bodies -/

namespace SharedView

/-- What stands behind the tables of all slabs. -/
def bodies (size : PageSize) (view : SharedView count) : Set UInt64 :=
  {address | ∃ cache ∈ view.caches, address ∈ cache.bodies size}

/-- The addresses that caches are stored at. -/
def addresses (view : SharedView count) : Set UInt64 :=
  {address | ∃ i, address ∈ (view.allocators i).table.addresses}

/-- A body is one of an allocator or in a page of the others. -/
theorem mem_bodies_cases {address : UInt64} (i : Fin count) (body : address ∈ view.bodies size) :
    size.pageOf address ∈ view.heldByOthers i ∨
      address ∈ (view.allocators i).table.bodies size := by
  obtain ⟨cache, mem, inside⟩ := body
  rcases mem_caches.1 mem with ⟨j, own⟩ | lost
  · by_cases same : j = i
    · subst same
      exact .inr ⟨cache, own, inside⟩
    · exact .inl (Multiset.mem_of_le (pages_le_heldByOthers same)
        (Multiset.mem_of_le (TableView.pages_le own) inside.1))
  · exact .inl (Multiset.mem_add.2 (.inr
      (Multiset.mem_of_le (CacheView.pages_le_sum lost) inside.1)))

theorem heldByOthers_update (view : SharedView count) (i : Fin count) (pool : PoolView)
    (allocator : AllocatorView) (dropped : List CacheView) :
    heldByOthers { pool, allocators := Function.update view.allocators i allocator,
                   lost := dropped ++ view.lost } i =
      (dropped.map CacheView.pages).sum + view.heldByOthers i := by
  rw [heldByOthers, heldByOthers, pagesOfOthers_update, List.map_append, List.sum_append]
  abel

/-- The bodies are in pages taken from the pool. -/
theorem bodies_subset_covered : view.bodies size ⊆ size.covered view.held := by
  rintro address ⟨cache, mem, inside⟩
  exact Multiset.mem_of_le (CacheView.pages_le_sum mem) inside.1

/-- What a step leaves alone: the bodies before and after, but for what a caller
writes, and the caches of other addresses. -/
structure Spares (view view' : SharedView count)
    (shared shared' : SharedHeap (MeteredPool size) count) (written : Set UInt64) : Prop where
  bytes : Set.EqOn shared'.heap.memory.byte shared.heap.memory.byte
    ((view.bodies size ∩ view'.bodies size) \ written)
  caches : ∀ address, shared'.heap.store.read address ≠ shared.heap.store.read address →
    address ∈ view'.addresses

theorem Spares.of_store {written : Set UInt64} (store : shared'.heap.store = shared.heap.store)
    (same : Set.EqOn shared'.heap.memory.byte shared.heap.memory.byte writtenᶜ) :
    view.Spares view' shared shared' written :=
  ⟨same.mono fun _ outside => outside.2, fun _ changed => absurd (by rw [store]) changed⟩

theorem Spares.of_eq (memory : shared'.heap.memory = shared.heap.memory)
    (store : shared'.heap.store = shared.heap.store) :
    view.Spares view' shared shared' ∅ :=
  .of_store store fun _ _ => by rw [memory]

namespace Describes

/-- An operation of one allocator spares what its table does. -/
theorem operate_spares {heap : Heap (MeteredPool size)} {pool : PoolView}
    {allocatorView : AllocatorView} {allocator : Allocator} {dropped : List CacheView}
    (wide : 8 ≤ size.length)
    (carried : TableView.Carried (MeteredPool.model wide)
      ((dropped.map CacheView.pages).sum + view.heldByOthers i) shared.heap
      (view.allocators i).table heap pool allocatorView.table allocator.table) :
    view.Spares { pool, allocators := Function.update view.allocators i allocatorView,
                  lost := dropped ++ view.lost } shared
      { heap, allocators := shared.allocators.set i allocator i.isLt } ∅ := by
  constructor
  · refine carried.frame.mono ?_
    rintro address ⟨⟨before, after⟩, _⟩
    rcases mem_bodies_cases i before with other | own
    · exact .inl (Multiset.mem_add.2 (.inr other))
    · rcases mem_bodies_cases i after with other | own'
      · rw [heldByOthers_update] at other
        exact .inl other
      · simp only [Function.update_self] at own'
        exact .inr ⟨own, own'⟩
  · intro address changed
    refine ⟨i, ?_⟩
    simp only [Function.update_self]
    exact Decidable.byContradiction fun unused => changed (carried.store address unused)

/-- An operation that gives up no cache. -/
theorem keep_spares {heap : Heap (MeteredPool size)} {pool : PoolView}
    {allocatorView : AllocatorView} {allocator : Allocator} (wide : 8 ≤ size.length)
    (carried : TableView.Carried (MeteredPool.model wide) (view.heldByOthers i) shared.heap
      (view.allocators i).table heap pool allocatorView.table allocator.table) :
    view.Spares { view with pool, allocators := Function.update view.allocators i allocatorView }
      shared { heap, allocators := shared.allocators.set i allocator i.isLt } ∅ := by
  have none : (([] : List CacheView).map CacheView.pages).sum + view.heldByOthers i =
      view.heldByOthers i := Multiset.zero_add _
  rw [← none] at carried
  exact operate_spares wide carried

variable (fits : size.Fits maxObjectSize) (h : view.Describes shared)
  (accounts : ledger.Accounts size view)

include h

theorem addMemory_spares (wide : 8 ≤ size.length) {extent : Extent}
    (fresh : ∀ page ∈ extent.pages size, page ∉ view.pool.added) : ∃ shared',
    SharedHeap.perform (.addMemory extent.start extent.length) shared =
      .ok (.region (view.pool.addRegion size extent).1) shared' ∧
    view.Spares { view with pool := (view.pool.addRegion size extent).2 } shared shared' ∅ := by
  obtain ⟨heap, ends, _, same, store⟩ := HeapM.addMemory_adds h.pool fresh
  refine ⟨{ shared with heap }, ?_, (same wide).mono ?_, fun address changed => ?_⟩
  · rw [SharedHeap.perform]
    refine SharedHeap.onHeap_ok ?_
    rw [bind_ok ends]
    rfl
  · rintro address ⟨⟨before, _⟩, _⟩
    exact bodies_subset_covered before
  · exact absurd (congrArg (CacheStore.read · address) store) changed

include fits accounts

/-- A permitted action spares the bodies that are there before and after it. -/
theorem perform_spares (permitted : ledger.Permits action) : ∃ shared',
    SharedHeap.perform action shared = .ok (view.perform size action).1 shared' ∧
    view.Spares (view.perform size action).2 shared shared' action.written := by
  cases action with
  | request request =>
    cases request with
    | init i =>
      obtain ⟨_, _, ends, _⟩ := h.houses.init (h.known fits) i
      exact ⟨_, ends, .of_eq rfl rfl⟩
    | teardown i =>
      cases opened : (view.allocators i).initialized with
      | false =>
        rw [perform_teardown_closed opened]
        exact ⟨_, h.houses.teardown_closed opened, .of_eq rfl rfl⟩
      | true =>
        obtain ⟨allocator, heap, ends, _, dropped⟩ := h.teardown_dropped fits opened
        have carried := dropped.toCarried
        rw [← AllocatorView.dropped_opened opened] at carried
        exact ⟨_, ends, operate_spares fits.wide carried⟩
    | alloc i bytes =>
      obtain ⟨allocator, heap, ends, served⟩ := h.alloc_served fits i bytes
      exact ⟨_, ends, keep_spares fits.wide served.toCarried⟩
    | free i object =>
      cases opened : (view.allocators i).initialized with
      | false =>
        rw [perform_free_closed opened]
        exact ⟨_, h.houses.free_closed opened object, .of_eq rfl rfl⟩
      | true =>
        obtain ⟨block, rfl, mem⟩ := accounts.exists_user permitted opened
        obtain ⟨allocator, heap, ends, freed⟩ := h.free_freed fits opened mem
        exact ⟨_, ends, keep_spares fits.wide freed.toCarried⟩
    | write address values =>
      obtain ⟨holding, mem, inside⟩ := permitted
      obtain ⟨cache, held, own⟩ := accounts.exists_cache mem
      obtain ⟨_, ends, _, same, _⟩ := h.houses.write held own inside
      exact ⟨_, ends, .of_store rfl same⟩
  | addMemory start length =>
    obtain ⟨shared', ends, spares⟩ := h.addMemory_spares fits.wide (accounts.fresh_pages permitted)
    exact ⟨shared', ends, spares⟩
  | refuse refusal =>
    obtain ⟨shared', ends, _, memory, store⟩ := h.refuse refusal
    exact ⟨shared', ends, .of_eq memory store⟩

/-- What is known of a heap before a permitted action and after it, and what the action
spares. -/
theorem perform_frame (permitted : ledger.Permits action) : ∃ shared',
    SharedHeap.perform action shared = .ok (view.perform size action).1 shared' ∧
    (view.perform size action).2.Describes shared' ∧
    (ledger.note action (view.perform size action).1).Accounts size (view.perform size action).2 ∧
    view.Spares (view.perform size action).2 shared shared' action.written := by
  obtain ⟨shared', ends, h', accounts'⟩ := h.perform_refines fits accounts permitted
  obtain ⟨_, spared, spares⟩ := h.perform_spares fits accounts permitted
  rw [ends] at spared
  cases spared
  exact ⟨shared', ends, h', accounts', spares⟩

end Describes

end SharedView

/-! ## What callers hold -/

namespace SharedHeap

/-- A heap with another record at an address. -/
def withRecord (shared : SharedHeap (MeteredPool size) count) (address : UInt64)
    (record : StoredCache) : SharedHeap (MeteredPool size) count :=
  { shared with heap := { shared.heap with store := shared.heap.store.write address record } }

/-- An action comes to the same whatever is recorded at an address, and the record stays. -/
def Ignores (shared : SharedHeap (MeteredPool size) count) (action : Action count) (reply : Reply)
    (shared' : SharedHeap (MeteredPool size) count) (address : UInt64) : Prop :=
  ∀ record, ∃ other,
    SharedHeap.perform action (shared.withRecord address record) = .ok reply other ∧
      other.allocators = shared'.allocators ∧ other.heap.store.read address = record

/-- What an action leaves of a block: its bytes, but for those that a caller writes, and no
cache is stored there.  The last field says of every address where a record would meet the
block that nothing is written there, not even what was there before. -/
structure Leaves (shared : SharedHeap (MeteredPool size) count) (action : Action count)
    (reply : Reply) (shared' : SharedHeap (MeteredPool size) count) (block : Block) : Prop where
  bytes : Set.EqOn shared'.heap.memory.byte shared.heap.memory.byte (block.run \ action.written)
  caches : ∀ address, shared'.heap.store.read address ≠ shared.heap.store.read address →
    Disjoint (Block.mk address bootstrapClass.size).run block.run
  records : ∀ address, ¬ Disjoint (Block.mk address bootstrapClass.size).run block.run →
    shared.Ignores action reply shared' address

end SharedHeap

/-- The blocks that callers hold. -/
def Ledger.blocks (ledger : Ledger count) : List Block := ledger.holdings.map Holding.block

/-- A block is held after each of some actions. -/
def Ledger.Keeps (block : Block) (ledger : Ledger count) : List (Action count) → List Reply → Prop
  | action :: actions, reply :: replies =>
    block ∈ (ledger.note action reply).blocks ∧
      (ledger.note action reply).Keeps block actions replies
  | _, _ => True

namespace Ledger.Accounts

variable (accounts : ledger.Accounts size view) (h : view.Describes shared) {block : Block}
  (mem : block ∈ ledger.blocks)

include accounts h mem

/-- What callers hold lies in the bodies. -/
theorem run_subset_bodies : block.run ⊆ view.bodies size := by
  obtain ⟨holding, held, rfl⟩ := List.mem_map.1 mem
  obtain ⟨cache, listed, own⟩ := accounts.exists_cache held
  obtain ⟨object, sizes⟩ := CacheView.mem_blocks.1 own
  have regular := h.regular_of_mem listed (CacheView.slabs_ne_nil own)
  rw [Block.run, sizes]
  exact fun address inside => ⟨cache, listed, regular.run_object_subset_bodies object inside⟩

/-- Where a record would meet what callers hold, no cache is stored. -/
theorem notMem_addresses {address : UInt64}
    (meets : ¬ Disjoint (Block.mk address bootstrapClass.size).run block.run) :
    address ∉ (view.allocators i).table.addresses :=
  fun used => meets (accounts.disjoint_storage h mem used).symm

end Ledger.Accounts

/-- A record at an address where no cache is stored says nothing of the heap. -/
theorem SharedView.Describes.withRecord (h : view.Describes shared) {address : UInt64}
    (unused : ∀ i, address ∉ (view.allocators i).table.addresses) (record : StoredCache) :
    view.Describes (shared.withRecord address record) := by
  refine h.congr_relied rfl rfl (fun i other used => ?_) fun _ _ => rfl
  have differ : other ≠ address := fun same => unused i (same ▸ used)
  exact (CacheStore.read_write ..).trans (if_neg differ)

/-- An action ignores a record where no cache is stored before it or after it. -/
theorem SharedView.Describes.ignores (h : view.Describes shared) (fits : size.Fits maxObjectSize)
    (accounts : ledger.Accounts size view) (permitted : ledger.Permits action)
    (h' : (view.perform size action).2.Describes shared') {address : UInt64}
    (unused : ∀ i, address ∉ (view.allocators i).table.addresses)
    (unused' : address ∉ (view.perform size action).2.addresses) :
    shared.Ignores action (view.perform size action).1 shared' address := by
  intro record
  obtain ⟨other, ends, known, _, spares⟩ :=
    (h.withRecord unused record).perform_frame fits accounts permitted
  have kept : other.heap.store.read address =
      (shared.withRecord address record).heap.store.read address :=
    Decidable.byContradiction fun changed => unused' (spares.caches address changed)
  exact ⟨other, ends, h'.houses.allocators_eq known.houses,
    kept.trans ((CacheStore.read_write ..).trans (if_pos rfl))⟩

namespace SharedHeap.Reachable

variable (fits : size.Fits maxObjectSize) (reachable : SharedHeap.Reachable shared ledger)

include fits reachable

/-- A permitted action leaves what is held before it and after it. -/
theorem leaves (permitted : ledger.Permits action) {reply : Reply}
    (ends : SharedHeap.perform action shared = .ok reply shared') {block : Block}
    (before : block ∈ ledger.blocks) (after : block ∈ (ledger.note action reply).blocks) :
    shared.Leaves action reply shared' block := by
  obtain ⟨view, h, accounts⟩ := reachable.exists_view fits
  obtain ⟨_, framed, h', accounts', spares⟩ := h.perform_frame fits accounts permitted
  rw [ends] at framed
  cases framed
  constructor
  · refine spares.bytes.mono ?_
    rintro address ⟨inside, unwritten⟩
    exact ⟨⟨accounts.run_subset_bodies h before inside,
      accounts'.run_subset_bodies h' after inside⟩, unwritten⟩
  · intro address changed
    obtain ⟨i, used⟩ := spares.caches address changed
    exact (accounts'.disjoint_storage h' after used).symm
  · intro address meets
    refine h.ignores fits accounts permitted h' (fun i => ?_) ?_
    · exact accounts.notMem_addresses h before meets
    · exact fun ⟨i, used⟩ => accounts'.notMem_addresses h' after meets used

/-- **Objects keep their bytes.**  A permitted action of a reachable heap ends, and every
byte of every object that is held before it and after it has its value still, unless the
action is a caller's write to that byte.  No cache is read or written there either. -/
theorem perform_leaves (permitted : ledger.Permits action) : ∃ reply shared',
    SharedHeap.perform action shared = .ok reply shared' ∧
    ∀ block ∈ ledger.blocks, block ∈ (ledger.note action reply).blocks →
      shared.Leaves action reply shared' block := by
  obtain ⟨reply, shared', ends⟩ := reachable.exists_reply fits permitted
  exact ⟨reply, shared', ends, fun _ before after =>
    reachable.leaves fits permitted ends before after⟩

/-- What is held all along a legal run changes only where callers write. -/
theorem run_leaves {actions : List (Action count)} (legal : ledger.Legal shared actions) :
    ∃ replies shared', actions.mapM SharedHeap.perform shared = .ok replies shared' ∧
      ∀ block ∈ ledger.blocks, ledger.Keeps block actions replies →
        Set.EqOn shared'.heap.memory.byte shared.heap.memory.byte
          (block.run \ ⋃ action ∈ actions, action.written) := by
  induction actions generalizing shared ledger with
  | nil => exact ⟨[], shared, rfl, fun _ _ _ _ _ => rfl⟩
  | cons action actions ih =>
    obtain ⟨reply, shared₁, ends⟩ := reachable.exists_reply fits legal.1
    obtain ⟨replies, shared', ends', rest⟩ :=
      ih (reachable.step legal.1 ends) (legal.2 reply shared₁ ends)
    refine ⟨reply :: replies, shared', ?_, ?_⟩
    · rw [List.mapM_cons, bind_ok ends, bind_ok ends']
      rfl
    · rintro block before ⟨after, later⟩ address ⟨inside, unwritten⟩
      simp only [List.mem_cons, Set.iUnion_iUnion_eq_or_left, Set.mem_union, not_or] at unwritten
      have first := (reachable.leaves fits legal.1 ends before after).bytes
      exact (rest block after later ⟨inside, unwritten.2⟩).trans (first ⟨inside, unwritten.1⟩)

end SharedHeap.Reachable

/-- A teardown leaks an object and leaves its bytes. -/
theorem SharedHeap.Reachable.perform_leaves_leaked :
    ∃ (shared shared' : SharedHeap (MeteredPool PageSize.default) 1) (ledger : Ledger 1),
      Reachable shared ledger ∧ ledger.blocks = [⟨0x12050, 112⟩] ∧
      SharedHeap.perform (.request (.teardown 0)) shared = .ok .done shared' ∧
      shared.Leaves (.request (.teardown 0)) .done shared' ⟨0x12050, 112⟩ := by
  have fits : PageSize.default.Fits maxObjectSize := ⟨by decide, by decide +kernel⟩
  let actions : List (Action 1) :=
    [.request (.init 0), .addMemory 0x10010 0x4000, .request (.alloc 0 100)]
  have legal : ({} : Ledger 1).Legal (.fresh PageSize.default 1 {}) actions :=
    ⟨trivial, fun _ _ _ => ⟨nofun, fun _ _ _ => ⟨trivial, fun _ _ _ => trivial⟩⟩⟩
  obtain ⟨replies, shared, ends, reachable⟩ := Reachable.run fits (.start {}) legal
  have permitted (ledger : Ledger 1) : ledger.Permits (.request (.teardown 0)) := trivial
  obtain ⟨reply, shared', ends', leaves⟩ := reachable.perform_leaves fits (permitted _)
  let all : SharedHeap.Op (MeteredPool PageSize.default) 1 (List Reply × Reply) := do
    let replies ← actions.mapM SharedHeap.perform
    let reply ← SharedHeap.perform (.request (.teardown 0))
    return (replies, reply)
  have whole : all (.fresh PageSize.default 1 {}) = .ok (replies, reply) shared' :=
    (bind_ok ends).trans (bind_ok ends')
  have answers : all.run' (.fresh PageSize.default 1 {}) =
      some ([.done, .region (.ok ()), .object (.ok 0x12050)], .done) := by
    decide +kernel
  rw [run'_ok whole] at answers
  obtain ⟨rfl, rfl⟩ := Prod.mk.inj (Option.some.inj answers)
  exact ⟨shared, shared', _, reachable, by decide +kernel, ends',
    leaves _ (by decide +kernel) (by decide +kernel)⟩

/-! ## What caches are stored in -/

/-- A cache is stored at an address. -/
def SharedHeap.HasCacheAt (shared : SharedHeap (MeteredPool size) count)
    (address : UInt64) : Prop :=
  ∃ (i : Fin count) (storages : List UInt64),
    (shared.allocators.get i).table.storages shared.heap.store = .ok storages ∧ address ∈ storages

/-- A cache is stored at an address, and it is still there after each of some actions. -/
def SharedHeap.HasCacheThroughout (address : UInt64)
    (shared : SharedHeap (MeteredPool size) count) : List (Action count) → Prop
  | [] => shared.HasCacheAt address
  | action :: actions => shared.HasCacheAt address ∧
    ∀ reply shared', SharedHeap.perform action shared = .ok reply shared' →
      shared'.HasCacheThroughout address actions

theorem SharedHeap.HasCacheThroughout.hasCacheAt {address : UInt64} {actions : List (Action count)}
    (stays : shared.HasCacheThroughout address actions) : shared.HasCacheAt address := by
  cases actions with
  | nil => exact stays
  | cons action actions => exact stays.1

namespace SharedView.Describes

variable (h : view.Describes shared) {address : UInt64}

include h

theorem hasCacheAt_iff : shared.HasCacheAt address ↔ address ∈ view.addresses := by
  constructor
  · rintro ⟨i, storages, listed, mem⟩
    cases (h.allocators i).table.storages_eq.symm.trans listed
    exact ⟨i, (view.allocators i).table.order_perm.mem_iff.1 mem⟩
  · rintro ⟨i, used⟩
    exact ⟨i, _, (h.allocators i).table.storages_eq,
      (view.allocators i).table.order_perm.mem_iff.2 used⟩

/-- The objects that caches are stored in lie in the bodies. -/
theorem run_storage_subset_bodies (used : address ∈ view.addresses) :
    (Block.mk address bootstrapClass.size).run ⊆ view.bodies size := by
  obtain ⟨i, used⟩ := used
  have listed : (view.allocators i).table.bootstrap ∈ view.caches :=
    SharedView.mem_caches.2 (.inl ⟨i, List.mem_cons_self⟩)
  have object := Multiset.mem_of_le (h.sound i).table.storages (Multiset.mem_coe.2 used)
  have regular := h.regular_of_mem listed (CacheView.slabs_ne_nil_of_object object)
  rw [Block.run, ← (h.sound i).table.bootstrapSize]
  exact fun address inside => ⟨_, listed, regular.run_object_subset_bodies object inside⟩

end SharedView.Describes

/-- Callers write nothing where a cache is stored. -/
theorem Ledger.Accounts.disjoint_written (accounts : ledger.Accounts size view)
    (h : view.Describes shared) (permitted : ledger.Permits action) {address : UInt64}
    (used : address ∈ view.addresses) :
    Disjoint action.written (Block.mk address bootstrapClass.size).run := by
  cases action with
  | request request =>
    cases request with
    | write start values =>
      obtain ⟨holding, mem, inside⟩ := permitted
      obtain ⟨i, used⟩ := used
      exact (accounts.disjoint_storage h (List.mem_map_of_mem mem) used).mono_left inside
    | init _ | teardown _ | alloc _ _ | free _ _ => exact (Set.disjoint_empty _).symm
  | addMemory _ _ | refuse _ => exact (Set.disjoint_empty _).symm

namespace SharedHeap.Reachable

variable (fits : size.Fits maxObjectSize) (reachable : SharedHeap.Reachable shared ledger)
  {address : UInt64}

include fits reachable

/-- No permitted action changes a byte of an object that a cache is stored in before it and
after it. -/
theorem leaves_storage (permitted : ledger.Permits action) {reply : Reply}
    (ends : SharedHeap.perform action shared = .ok reply shared')
    (before : shared.HasCacheAt address) (after : shared'.HasCacheAt address) :
    Set.EqOn shared'.heap.memory.byte shared.heap.memory.byte
      (Block.mk address bootstrapClass.size).run := by
  obtain ⟨view, h, accounts⟩ := reachable.exists_view fits
  obtain ⟨_, framed, h', _, spares⟩ := h.perform_frame fits accounts permitted
  rw [ends] at framed
  cases framed
  rw [h.hasCacheAt_iff] at before
  rw [h'.hasCacheAt_iff] at after
  have unwritten := accounts.disjoint_written h permitted before
  refine spares.bytes.mono ?_
  intro other inside
  refine ⟨⟨?_, ?_⟩, fun written => ?_⟩
  · exact h.run_storage_subset_bodies before inside
  · exact h'.run_storage_subset_bodies after inside
  · exact Set.disjoint_left.1 unwritten written inside

/-- **Stored caches keep their bytes.**  As long as a cache is stored in an object, a legal run
changes no byte of the object, whoever acts. -/
theorem run_leaves_storages {actions : List (Action count)} (legal : ledger.Legal shared actions) :
    ∃ replies shared', actions.mapM SharedHeap.perform shared = .ok replies shared' ∧
      ∀ address, shared.HasCacheThroughout address actions →
        Set.EqOn shared'.heap.memory.byte shared.heap.memory.byte
          (Block.mk address bootstrapClass.size).run := by
  induction actions generalizing shared ledger with
  | nil => exact ⟨[], shared, rfl, fun _ _ _ _ => rfl⟩
  | cons action actions ih =>
    obtain ⟨reply, shared₁, ends⟩ := reachable.exists_reply fits legal.1
    obtain ⟨replies, shared', ends', rest⟩ :=
      ih (reachable.step legal.1 ends) (legal.2 reply shared₁ ends)
    refine ⟨reply :: replies, shared', ?_, fun address stays => ?_⟩
    · rw [List.mapM_cons, bind_ok ends, bind_ok ends']
      rfl
    · have later := stays.2 reply shared₁ ends
      have first := reachable.leaves_storage fits legal.1 ends stays.1 later.hasCacheAt
      exact (rest address later).trans first

end SharedHeap.Reachable

end SlabHeap
