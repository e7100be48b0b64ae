import SlabHeap.Proofs.Accounting
import SlabHeap.Proofs.Frames
import SlabHeap.Proofs.TableUpdates

/-!
# Teardown is exact

A teardown frees the objects that caches are stored in, one after another, while it
walks the chains that run through them.  What it gives back are pages of the bootstrap
cache, each once: those in which no object of a user is left
(`TableView.exists_given_reset`).  All other pages stay as they are.

`SharedHeap.Reachable.teardown_exact` says so in terms of the ledger.
-/

namespace SlabHeap

variable {size : PageSize} {count : Nat}

/-! ## Pages given back -/

/-- Put pages back on top of the stack, the last one in front. -/
def PoolView.giveAll (pool : PoolView) (pages : List UInt64) : PoolView :=
  { pool with free := pages ++ pool.free, released := pages ++ pool.released }

namespace CacheView

variable {view : CacheView} {object : UInt64} {addresses : List UInt64}

/-- Freeing an object gives back the pages that the cache loses. -/
theorem exists_given_free (regular : view.Regular size) (mem : object ∈ view.objects size)
    (pool : PoolView) : ∃ given : List UInt64,
      ((view.free size object).run pool).2 = pool.giveAll given ∧
      view.pages = given + ((view.free size object).run pool).1.pages := by
  obtain ⟨front, free, back, located⟩ := regular.exists_located mem
  have pages := located.pages_returned regular
  by_cases emptied : (view.returned size object).Emptied size (size.pageOf object)
  · refine ⟨[size.pageOf object], ?_, ?_⟩
    · simp only [CacheView.free, if_pos emptied]
      rfl
    · rw [← pages, pages_cons (located.slabs_returned_drop regular)]
      simp only [CacheView.free, if_pos emptied]
      rfl
  · refine ⟨[], ?_, ?_⟩
    · simp only [CacheView.free, if_neg emptied]
      rfl
    · simp only [CacheView.free, if_neg emptied]
      exact pages.symm.trans (Multiset.zero_add _).symm

/-- Freeing several objects gives back the pages that the cache loses. -/
theorem exists_given_frees (sound : view.Sound size)
    (regular : view.slabs ≠ [] → view.Regular size)
    (stored : (addresses : Multiset UInt64) ≤ view.objects size) (pool : PoolView) :
    ∃ given : List UInt64,
      ((addresses.foldlM (CacheView.free size) view).run pool).2 = pool.giveAll given ∧
      view.pages = given + ((addresses.foldlM (CacheView.free size) view).run pool).1.pages := by
  induction addresses generalizing view pool with
  | nil => exact ⟨[], rfl, (Multiset.zero_add _).symm⟩
  | cons address rest ih =>
    rw [← Multiset.cons_coe] at stored
    have mem := Multiset.mem_of_le stored (Multiset.mem_cons_self address _)
    have regular := regular (slabs_ne_nil_of_object mem)
    have freed := (free_always regular sound mem).run pool
    obtain ⟨given, gives, pages⟩ := exists_given_free regular mem pool
    rw [List.foldlM_cons, Plan.run_bind]
    rw [freed.objects, Multiset.singleton_add, Multiset.cons_le_cons_iff] at stored
    obtain ⟨given', gives', pages'⟩ :=
      ih freed.sound (fun _ => freed.regular regular) stored ((view.free size address).run pool).2
    refine ⟨given' ++ given, ?_, ?_⟩
    · rw [gives', gives]
      simp only [PoolView.giveAll, List.append_assoc]
    · rw [pages, pages', ← Multiset.coe_add]
      abel

end CacheView

/-- Nothing is found in the table. -/
structure CacheTable.Bare (table : CacheTable) (store : CacheStore) : Prop where
  registered : table.registered = false
  buckets : ∀ b, table.buckets.get b = none
  find : ∀ cls, table.find store cls = .ok none
  caches : table.caches store = .ok []

namespace TableView

variable {view : TableView} {table : CacheTable} {store : CacheStore} {memory : Memory}

/-- Dropping all caches gives back the pages that the bootstrap cache loses. -/
theorem exists_given_reset (sound : view.Sound size) (regular : view.Regular size)
    (pool : PoolView) : ∃ given : List UInt64,
      ((view.reset size).run pool).2 = pool.giveAll given ∧
      view.bootstrap.pages = given + ((view.reset size).run pool).1.bootstrap.pages := by
  have stored : (view.order : Multiset UInt64) ≤ view.bootstrap.objects size := by
    rw [Multiset.coe_eq_coe.2 view.order_perm]
    exact sound.storages
  rw [reset, Plan.run_bind]
  exact CacheView.exists_given_frees (sound.caches _ List.mem_cons_self)
    (sound.regular_of_mem regular List.mem_cons_self) stored pool

/-- Without stored caches there is none to drop. -/
theorem order_of_alone (alone : view.stored = []) : view.order = [] := by
  have perm := view.order_perm
  rw [addresses, alone] at perm
  exact List.perm_nil.1 perm

/-- In a table without stored caches nothing is found until the bootstrap cache is
registered. -/
theorem Describes.bare (h : view.Describes size table store memory) (alone : view.stored = [])
    (unregistered : view.registered = false) : table.Bare store := by
  have closed : table.registered = false := h.registered.trans unregistered
  refine ⟨closed, fun b => ?_, fun cls => ?_, ?_⟩
  · have chain := h.buckets b
    rw [bucket, alone] at chain
    exact chain
  · rw [h.find_eq, TableView.find, unregistered, alone]
    simp
  · rw [h.caches_eq, closed, order_of_alone alone]
    rfl

end TableView

/-! ## Around a teardown -/

variable {view : SharedView count} {shared shared' : SharedHeap (MeteredPool size) count}
  {ledger : Ledger count} {i j : Fin count}

/-- An allocator, its caches and all bytes of its pages are as they were. -/
structure SharedHeap.Spared (shared shared' : SharedHeap (MeteredPool size) count)
    (ledger : Ledger count) (j : Fin count) (storages : List UInt64) : Prop where
  allocator : shared'.allocators.get j = shared.allocators.get j
  find : ∀ cls, (shared'.allocators.get j).table.find shared'.heap.store cls =
    (shared.allocators.get j).table.find shared.heap.store cls
  caches : (shared'.allocators.get j).table.caches shared'.heap.store =
    (shared.allocators.get j).table.caches shared.heap.store
  bytes : ∀ object ∈ (ledger.users j).map Block.address + (storages : Multiset UInt64),
    Set.EqOn shared'.heap.memory.byte shared.heap.memory.byte (size.page (size.pageOf object))

/-- Objects of an allocator lie in pages of its table. -/
theorem Ledger.Accounts.pageOf_mem {object : UInt64} (accounts : ledger.Accounts size view)
    (h : view.Describes shared) (mem : object ∈ (ledger.users j).map Block.address +
      ((view.allocators j).table.order : Multiset UInt64)) :
    size.pageOf object ∈ (view.allocators j).table.pages := by
  have sound := (h.sound j).table
  rcases Multiset.mem_add.1 mem with used | stored
  · obtain ⟨block, held, rfl⟩ := Multiset.mem_map.1 used
    rw [accounts.users j] at held
    obtain ⟨cache, listed, _, own⟩ := sound.exists_cache_of_users (h.regular j) held
    have regular := sound.regular_of_mem (h.regular j) listed
      (CacheView.slabs_ne_nil_of_object own)
    exact Multiset.mem_of_le (TableView.pages_le listed) (regular.pageOf_mem own)
  · exact sound.pageOf_address (h.regular j)
      ((view.allocators j).table.order_perm.mem_iff.1 (Multiset.mem_coe.1 stored))

/-- What one allocator does leaves the others as they were. -/
theorem Ledger.Accounts.operate_spared {heap : Heap (MeteredPool size)} {pool : PoolView}
    {tableView : TableView} {allocator : Allocator} {dropped : Multiset UInt64}
    (accounts : ledger.Accounts size view) (h : view.Describes shared) (wide : 8 ≤ size.length)
    (carried : TableView.Carried (MeteredPool.model wide) (dropped + view.heldByOthers i)
      shared.heap (view.allocators i).table heap pool tableView allocator.table)
    (differ : j ≠ i) :
    shared.Spared { heap, allocators := shared.allocators.set i allocator i.isLt } ledger j
      (view.allocators j).table.order := by
  have kept := get_set_of_ne shared.allocators allocator differ
  have le : (view.allocators j).table.pages ≤ dropped + view.heldByOthers i :=
    le_trans (SharedView.pages_le_heldByOthers differ) (Multiset.le_add_left _ _)
  have before := (h.allocators j).table
  have sound := (h.sound j).table
  have stores : ∀ address ∈ (view.allocators j).table.addresses,
      heap.store.read address = shared.heap.store.read address := fun address mem =>
    carried.read_of_others (Multiset.mem_of_le le (sound.pageOf_address (h.regular j) mem))
  have frame := carried.frame.mono Set.subset_union_left
  have after := before.congr sound (h.regular j) (frame.mono
    ((sound.notes_subset_covered (h.regular j)).trans (PageSize.covered_mono le))) stores
  constructor
  · exact kept
  · intro cls
    rw [kept, after.find_eq, before.find_eq]
  · have same : (view.allocators j).table.order.map
          (fun address => (heap.store.read address).cache) =
        (view.allocators j).table.order.map
          fun address => (shared.heap.store.read address).cache :=
      List.map_congr_left fun address mem => congrArg StoredCache.cache
        (stores address ((view.allocators j).table.order_perm.mem_iff.1 mem))
    rw [kept, after.caches_eq, before.caches_eq, CacheTable.allCaches, CacheTable.allCaches, same]
  · intro object mem
    refine frame.mono fun address inside => Multiset.mem_of_le le ?_
    rw [(PageSize.mem_page_iff (size.pageOf_aligned object)).1 inside]
    exact accounts.pageOf_mem h mem

/-- What a teardown makes of a shared heap.  The caches of its allocators are stored in
the given objects, and the teardown gives back the given pages. -/
structure SharedHeap.TearsDown (shared shared' : SharedHeap (MeteredPool size) count)
    (ledger : Ledger count) (i : Fin count) (storages : Fin count → List UInt64)
    (given : List UInt64) : Prop where
  stored : ∀ j : Fin count,
    (shared.allocators.get j).table.storages shared.heap.store = .ok (storages j)
  before : (shared.allocators.get i).table.bootstrap.AccountsFor size shared.heap.memory
    (ledger.objects i (storages i) bootstrapClass.size)
  closed : (shared'.allocators.get i).initialized = false
  bare : (shared'.allocators.get i).table.Bare shared'.heap.store
  after : (shared'.allocators.get i).table.bootstrap.AccountsFor size shared'.heap.memory
    (ledger.objects i [] bootstrapClass.size)
  nodup : given.Nodup
  emptied : ∀ page, page ∈ given ↔
    page ∈ (ledger.objects i (storages i) bootstrapClass.size).map size.pageOf ∧
      page ∉ (ledger.objects i [] bootstrapClass.size).map size.pageOf
  released : shared'.heap.source.released = given ++ shared.heap.source.released
  requests : shared'.heap.source.requests = shared.heap.source.requests
  free : ∃ free, shared.heap.source.pool.FreePages shared.heap.memory free ∧
    shared'.heap.source.pool.FreePages shared'.heap.memory (given ++ free)
  used : shared'.heap.source.pool.AccountsFor shared'.heap.memory
    (ledger.regions.flatMap (Extent.pages size))
    (((ledger.holdings.map (·.block.address) : Multiset UInt64) +
      ∑ j ∈ Finset.univ.erase i, (storages j : Multiset UInt64)).map size.pageOf).dedup
  drained : (∀ holding ∈ ledger.holdings, holding.owner ≠ i) →
    (shared'.allocators.get i).table.bootstrap.pages = 0 ∧
      (((shared.allocators.get i).table.allCaches shared.heap.store (storages i)).map
        (·.pages.toNat)).sum = given.length
  others : ∀ j ≠ i, shared.Spared shared' ledger j (storages j)

/-- The bootstrap class keeps its users' objects, and no other class has any. -/
theorem Ledger.objects_teardown (opened : ledger.opened i = true) (reply : Reply) :
    (ledger.note (.request (.teardown i)) reply).objects i [] bootstrapClass.size =
      ledger.objects i [] bootstrapClass.size := by
  have users : (ledger.note (.request (.teardown i)) reply).users i =
      (ledger.users i).filter (·.size = bootstrapClass.size) := by
    rw [note, opened, if_pos rfl]
    exact Holding.usersIn_leave ledger.holdings i
  rw [objects, objects, users, Multiset.filter_filter]
  simp

/-- A teardown leaves callers the objects that they hold. -/
theorem Ledger.addresses_teardown (ledger : Ledger count) (i : Fin count) (reply : Reply) :
    (ledger.note (.request (.teardown i)) reply).holdings.map (·.block.address) =
      ledger.holdings.map (·.block.address) := by
  rw [note]
  split
  · simp only [List.map_map, Function.comp_def, Holding.block_leave]
  · rfl

/-- Where no object is left, a cache has no page. -/
theorem Cache.AccountsFor.pages_eq_zero {cache : Cache} {memory : Memory}
    (h : cache.AccountsFor size memory 0) : cache.pages = 0 :=
  UInt64.toNat_inj.1 h.pages

namespace Ledger.Accounts

variable (accounts : ledger.Accounts size view) (h : view.Describes shared)

include accounts h

/-- The pages of the bootstrap cache are those of its objects. -/
theorem mem_bootstrap_pages {page : UInt64} :
    page ∈ (ledger.objects i (view.allocators i).table.order bootstrapClass.size).map
        size.pageOf ↔ page ∈ (view.allocators i).table.bootstrap.pages := by
  have own : (view.allocators i).table.bootstrap ∈ (view.allocators i).table.caches :=
    List.mem_cons_self
  have sound := (h.sound i).table
  rw [← sound.bootstrapSize, accounts.objects_eq h.houses own]
  by_cases bare : (view.allocators i).table.bootstrap.slabs = []
  · simp [CacheView.objects, CacheView.pages, bare]
  · exact (sound.regular_of_mem (h.regular i) own bare).mem_map_pageOf (sound.caches _ own)

/-- The bootstrap cache agrees with the ledger. -/
theorem bootstrap_accountsFor :
    (shared.allocators.get i).table.bootstrap.AccountsFor size shared.heap.memory
      (ledger.objects i (view.allocators i).table.order bootstrapClass.size) := by
  have agrees := accounts.cache_accountsFor h
    (show (shared.allocators.get i).table.bootstrap ∈ (shared.allocators.get i).table.allCaches
      shared.heap.store (view.allocators i).table.order from List.mem_cons_self)
  rw [(h.allocators i).table.bootstrap.objectSize, (h.sound i).table.bootstrapSize] at agrees
  exact agrees

/-- Without users, all pages of an allocator are the bootstrap cache's. -/
theorem sum_pages_of_drained (none : ledger.users i = 0) :
    (((shared.allocators.get i).table.allCaches shared.heap.store
      (view.allocators i).table.order).map (·.pages.toNat)).sum =
        (view.allocators i).table.bootstrap.pages.card := by
  have sizes := ((h.allocators i).table.sizes_perm).nodup_iff.2 (h.sound i).table.classes
  rw [CacheTable.allCaches, List.map_cons, List.nodup_cons,
    (h.allocators i).table.bootstrap.objectSize, (h.sound i).table.bootstrapSize] at sizes
  have stored : ∀ cache ∈ (view.allocators i).table.order.map fun address =>
      (shared.heap.store.read address).cache, cache.pages.toNat = 0 := by
    intro cache mem
    have differ : cache.objectSize ≠ bootstrapClass.size := fun same =>
      sizes.1 (List.mem_map.2 ⟨cache, mem, same⟩)
    have agrees := accounts.cache_accountsFor h (List.mem_cons_of_mem _ mem)
    rw [objects, none, if_neg differ] at agrees
    exact congrArg UInt64.toNat agrees.pages_eq_zero
  rw [CacheTable.allCaches, List.map_cons, List.sum_cons, (h.allocators i).table.bootstrap.pages,
    List.sum_eq_zero (by simpa using stored), Nat.add_zero]

end Ledger.Accounts

theorem Ledger.users_of_drained (none : ∀ holding ∈ ledger.holdings, holding.owner ≠ i) :
    ledger.users i = 0 := by
  have empty : (ledger.holdings.filter fun holding => holding.LiveAt i) = [] :=
    List.filter_eq_nil_iff.2 fun holding mem live =>
      none holding mem (of_decide_eq_true live).1
  rw [users, Holding.usersIn, empty]
  rfl

/-- What a teardown makes of a view. -/
structure SharedView.TornDown (view view' : SharedView count) (i : Fin count)
    (given : List UInt64) : Prop where
  pool : view'.pool = view.pool.giveAll given
  pages : (view.allocators i).table.bootstrap.pages =
    given + (view'.allocators i).table.bootstrap.pages
  alone : (view'.allocators i).table.stored = []
  unregistered : (view'.allocators i).table.registered = false
  others : ∀ j ≠ i, view'.allocators j = view.allocators j

theorem SharedView.Describes.exists_tornDown (h : view.Describes shared)
    (opened : (view.allocators i).initialized = true) : ∃ given,
    view.TornDown (view.perform size (.request (.teardown i))).2 i given := by
  obtain ⟨given, gives, pages⟩ :=
    (view.allocators i).table.exists_given_reset (h.sound i).table (h.regular i) view.pool
  have run : ((view.allocators i).teardown size).run view.pool =
      (⟨(((view.allocators i).table.reset size).run view.pool).1, false⟩,
        view.pool.giveAll given) := by
    rw [AllocatorView.teardown, opened, if_pos rfl, Plan.run_bind, gives]
    rfl
  have reset : ∃ bootstrap, (((view.allocators i).table.reset size).run view.pool).1 =
      { bootstrap } := by
    rw [TableView.reset, Plan.run_bind]
    exact ⟨_, rfl⟩
  obtain ⟨bootstrap, reset⟩ := reset
  rw [reset] at run pages
  refine ⟨given, congrArg Prod.snd run, ?_, ?_, ?_, fun j differ =>
    Function.update_of_ne differ _ _⟩
  all_goals simp only [SharedView.perform, Function.update_self, run]
  exact pages

namespace SharedView.TornDown

variable {view' : SharedView count} {given : List UInt64} {reply : Reply}
  (torn : view.TornDown view' i given)

include torn

/-- The caches of the other allocators stay where they are stored. -/
theorem sum_order : ∑ j, ((view'.allocators j).table.order : Multiset UInt64) =
    ∑ j ∈ Finset.univ.erase i, ((view.allocators j).table.order : Multiset UInt64) := by
  rw [← Finset.add_sum_erase _ _ (Finset.mem_univ i), TableView.order_of_alone torn.alone,
    Multiset.coe_nil, zero_add]
  exact Finset.sum_congr rfl fun j mem => by rw [torn.others j (Finset.ne_of_mem_erase mem)]

variable (h : view.Describes shared) (h' : view'.Describes shared')

include h

/-- No page is given back twice, and none that the bootstrap cache keeps. -/
theorem nodup_given : (given + (view'.allocators i).table.bootstrap.pages).Nodup := by
  rw [← torn.pages]
  exact Multiset.nodup_of_le (TableView.pages_le List.mem_cons_self) (h.regular i).nodup

include h'

/-- The pages given back are on top of the free ones. -/
theorem freePages (wide : 8 ≤ size.length) : ∃ free,
    shared.heap.source.pool.FreePages shared.heap.memory free ∧
      shared'.heap.source.pool.FreePages shared'.heap.memory (given ++ free) := by
  have chain := h'.pool.stack.chain wide
  rw [torn.pool] at chain
  exact ⟨view.pool.free, h.pool.stack.chain wide, chain⟩

variable (accounts : ledger.Accounts size view) (opened : ledger.opened i = true)
  (accounts' : (ledger.note (.request (.teardown i)) reply).Accounts size view')

include accounts' opened

omit h in
/-- The bootstrap cache keeps the objects of its users. -/
theorem bootstrap_accountsFor :
    (shared'.allocators.get i).table.bootstrap.AccountsFor size shared'.heap.memory
      (ledger.objects i [] bootstrapClass.size) := by
  have kept := accounts'.bootstrap_accountsFor h' (i := i)
  rw [TableView.order_of_alone torn.alone, Ledger.objects_teardown opened] at kept
  exact kept

include accounts

/-- The pages given back are those in which no object of a user is left. -/
theorem mem_given_iff {page : UInt64} : page ∈ given ↔
    page ∈ (ledger.objects i (view.allocators i).table.order bootstrapClass.size).map
        size.pageOf ∧
      page ∉ (ledger.objects i [] bootstrapClass.size).map size.pageOf := by
  have left : _ ↔ page ∈ (view'.allocators i).table.bootstrap.pages :=
    accounts'.mem_bootstrap_pages h'
  rw [TableView.order_of_alone torn.alone, Ledger.objects_teardown opened] at left
  have apart : page ∈ given → page ∉ (view'.allocators i).table.bootstrap.pages :=
    Multiset.disjoint_left.1 (Multiset.nodup_add.1 (torn.nodup_given h)).2.2
  rw [accounts.mem_bootstrap_pages h, left, torn.pages, Multiset.mem_add, Multiset.mem_coe]
  tauto

/-- Without users no page is left, and each page of a cache is given back. -/
theorem drained (none : ∀ holding ∈ ledger.holdings, holding.owner ≠ i) :
    (shared'.allocators.get i).table.bootstrap.pages = 0 ∧
      (((shared.allocators.get i).table.allCaches shared.heap.store
        (view.allocators i).table.order).map (·.pages.toNat)).sum = given.length := by
  have users := Ledger.users_of_drained none
  have bare : ledger.objects i [] bootstrapClass.size = 0 := by simp [Ledger.objects, users]
  have kept := torn.bootstrap_accountsFor h' opened accounts'
  rw [bare] at kept
  have count := (h'.allocators i).table.bootstrap.pages
  rw [kept.pages_eq_zero] at count
  refine ⟨kept.pages_eq_zero, ?_⟩
  rw [accounts.sum_pages_of_drained h users, torn.pages, Multiset.card_add, Multiset.coe_card,
    ← count]
  rfl

omit h opened accounts in
/-- The pages in use are those of what callers hold and of the other allocators. -/
theorem pool_accountsFor (wide : 8 ≤ size.length) :
    shared'.heap.source.pool.AccountsFor shared'.heap.memory
      (ledger.regions.flatMap (Extent.pages size))
      (((ledger.holdings.map (·.block.address) : Multiset UInt64) +
        ∑ j ∈ Finset.univ.erase i, ((view.allocators j).table.order : Multiset UInt64)).map
          size.pageOf).dedup := by
  have used := accounts'.pool_accountsFor h' wide
  rw [← accounts'.dedup_pages h'.houses, Ledger.addresses_teardown, Ledger.regions_request,
    torn.sum_order] at used
  exact used

end SharedView.TornDown

/-- **Teardown is exact.**  The teardown of an open allocator ends.  It drops all caches and
closes the allocator, the bootstrap cache keeps the objects of users and their pages, and
its other pages are given back, each once.  All else is as it was. -/
theorem SharedHeap.Reachable.teardown_exact (fits : size.Fits maxObjectSize)
    (reachable : SharedHeap.Reachable shared ledger)
    (opened : (shared.allocators.get i).initialized = true) :
    ∃ shared' storages given,
      SharedHeap.perform (.request (.teardown i)) shared = .ok .done shared' ∧
      shared.TearsDown shared' ledger i storages given := by
  obtain ⟨view, h, accounts⟩ := reachable.exists_view fits
  have opened := (h.allocators i).initialized.symm.trans opened
  have noted := (accounts.opened i).trans opened
  obtain ⟨allocator, heap, ends, closed, dropped⟩ := h.teardown_dropped fits opened
  obtain ⟨_, refined, h', accounts'⟩ :=
    h.perform_refines fits accounts (show ledger.Permits (.request (.teardown i)) from trivial)
  obtain ⟨-, rfl⟩ := EStateM.Result.ok.inj (ends.symm.trans refined)
  obtain ⟨given, torn⟩ := h.exists_tornDown opened
  generalize (view.perform size (.request (.teardown i))).2 = view' at *
  exact ⟨_, fun j => (view.allocators j).table.order, given, ends, {
    stored := fun j => (h.allocators j).table.storages_eq
    before := accounts.bootstrap_accountsFor h
    closed := by rw [get_set_self]; exact closed
    bare := (h'.allocators i).table.bare torn.alone torn.unregistered
    after := torn.bootstrap_accountsFor h' noted accounts'
    nodup := Multiset.coe_nodup.1 (Multiset.nodup_add.1 (torn.nodup_given h)).1
    emptied := fun page => torn.mem_given_iff h h' accounts noted accounts'
    released := by rw [h'.pool.released, h.pool.released, torn.pool]; rfl
    requests := by rw [h'.pool.requests, h.pool.requests, torn.pool]; rfl
    free := torn.freePages h h' fits.wide
    used := torn.pool_accountsFor h' accounts' fits.wide
    drained := torn.drained h h' accounts noted accounts'
    others := fun j differ => accounts.operate_spared h fits.wide dropped.toCarried differ }⟩

/-- An allocator with an object of the bootstrap class and another one. -/
theorem SharedHeap.Reachable.teardown_exact_two :
    ∃ (shared shared' : SharedHeap (MeteredPool PageSize.default) 1) (ledger : Ledger 1)
      (storages : Fin 1 → List UInt64) (given : List UInt64),
      Reachable shared ledger ∧ (shared.allocators.get 0).initialized = true ∧
      ledger.blocks = [⟨0x110a0, 64⟩, ⟨0x12050, 112⟩] ∧
      SharedHeap.perform (.request (.teardown 0)) shared = .ok .done shared' ∧
      shared.TearsDown shared' ledger 0 storages given := by
  have fits : PageSize.default.Fits maxObjectSize := ⟨by decide, by decide +kernel⟩
  let actions : List (Action 1) := [.request (.init 0), .addMemory 0x10010 0x4000,
    .request (.alloc 0 100), .request (.alloc 0 64)]
  have legal : ({} : Ledger 1).Legal (.fresh PageSize.default 1 {}) actions :=
    ⟨trivial, fun _ _ _ => ⟨nofun, fun _ _ _ => ⟨trivial, fun _ _ _ => ⟨trivial, fun _ _ _ =>
      trivial⟩⟩⟩⟩
  let replies : List Reply :=
    [.done, .region (.ok ()), .object (.ok 0x12050), .object (.ok 0x110a0)]
  let ledger := ({} : Ledger 1).noteAll actions replies
  obtain ⟨shared, -, reachable⟩ : ∃ shared, _ ∧ Reachable shared ledger :=
    Reachable.run_of_answers fits (.start {}) legal (by decide +kernel)
  have opened : (shared.allocators.get 0).initialized = true := by
    rw [reachable.initialized_eq fits]
    decide +kernel
  obtain ⟨shared', storages, given, ends', exact⟩ := reachable.teardown_exact fits opened
  exact ⟨shared, shared', _, storages, given, reachable, opened, by decide +kernel, ends', exact⟩

end SlabHeap
