import SlabHeap.Proofs.TableSessions

/-!
# Tables are finite maps

A table that is asked for caches in any permitted order is a map from classes to caches
(`TableSession.IsMap`).  The chains of the buckets end, each cache on them belongs to its
bucket and has a class of its own, and it is stored in a live object of the bootstrap cache
that stores no other.  A class finds the cache that was created for it since the last reset,
and the counters, lists and headers of this cache are what was served from it and not put
back.  The cache tells so (`CacheStats.AccountsFor`), and a walk over all caches meets each
that can be found once.

`TableSession.Reachable.isMap` says so of every reachable session, whatever the classes, the
collisions and the refusals.  No request stops at a fault, and what a class finds it finds
again until the next reset.
-/

namespace SlabHeap

open TableHistory

/-- The object is at a slot of a slab of the cache, and the slot is not free. -/
def Cache.Serves (size : PageSize) (cache : Cache) (memory : Memory) (object : UInt64) : Prop :=
  ∃ (slab : Slab) (slot : UInt64) (free : List UInt64),
    object = size.slotAddress cache.objectSize slab.base slot ∧
      slot.toNat < size.slots cache.objectSize ∧ slab.objectSize memory = cache.objectSize ∧
      slab.FreeSlots memory free ∧ slot ∉ free

/-- The live objects of a cache are at slots that are not free. -/
theorem CacheView.Describes.serves {size : PageSize} {view : CacheView} {cache : Cache}
    {memory : Memory} {object : UInt64} (h : view.Describes size cache memory)
    (regular : view.Regular size) (mem : object ∈ view.objects size) :
    cache.Serves size memory object := by
  obtain ⟨slab, held, slot, inRange, used, same⟩ := regular.mem_objects.1 mem
  have described := h.slabs slab held
  rw [Cache.Serves, h.objectSize]
  exact ⟨slab.slab, slot, slab.free, same.symm, inRange, described.sizeNoted,
    described.freeChain, used⟩

namespace TableView.Describes

variable {size : PageSize} {view : TableView} {table : CacheTable} {store : CacheStore}
  {memory : Memory} {caches : List Cache} (h : view.Describes size table store memory)
  (walked : table.caches store = .ok caches)

include h walked

/-- A walk over the caches meets the bootstrap cache if it is registered, and all others. -/
theorem mem_caches {cache : Cache} : cache ∈ caches ↔
    (view.registered = true ∧ cache = table.bootstrap) ∨
      ∃ address ∈ view.order, (store.read address).cache = cache := by
  cases walked.symm.trans h.caches_eq
  rw [CacheTable.allCaches, List.tail_cons, ← List.mem_map, h.registered]
  split
  · rename_i registered
    simp only [registered, List.mem_cons, true_and]
  · rename_i other
    simp only [other, Bool.false_eq_true, false_and, false_or]

/-- No class is met twice. -/
theorem nodup_caches (sound : view.Sound size) : (caches.map Cache.objectSize).Nodup := by
  have nodup := h.sizes_perm.nodup_iff.2 sound.classes
  cases walked.symm.trans h.caches_eq
  split
  · exact nodup
  · exact nodup.sublist ((List.tail_sublist _).map _)

/-- The caches that a walk meets are those that can be found. -/
theorem mem_caches_iff_find (sound : view.Sound size) (regular : view.Regular size)
    {cache : Cache} : cache ∈ caches ↔
      ∃ cls ref, view.find cls = some ref ∧ table.cache store ref = cache := by
  rw [h.mem_caches walked]
  constructor
  · rintro (⟨registered, rfl⟩ | ⟨address, listed, rfl⟩)
    · refine ⟨bootstrapClass, .bootstrap, ?_, rfl⟩
      rw [find, if_pos rfl, if_pos registered]
    · have has : view.Has (.stored address) := view.order_perm.mem_iff.1 listed
      obtain ⟨stored, held, rfl⟩ := List.mem_map.1 has
      obtain ⟨_, _, _, own, _⟩ := exists_split (sound.nodup_addresses regular) held
      have mem : stored.view ∈ view.caches := .tail _ (List.mem_map_of_mem held)
      obtain ⟨ref, found, has', same⟩ := sound.find_of_mem regular
        (sound.registered (List.ne_nil_of_mem held)) mem
        (show (SizeClass.mk stored.view.objectSize (sound.rounded _ mem)).size = _ from rfl)
      obtain rfl := sound.ref_inj (sound.nodup_addresses regular) has' has
        (congrArg CacheView.objectSize (same.trans own.symm))
      exact ⟨_, _, found, rfl⟩
  · rintro ⟨cls, ref, found, rfl⟩
    have has := (find_some sound regular found).1
    cases ref with
    | bootstrap =>
      refine .inl ⟨?_, rfl⟩
      unfold find at found
      split at found
      · split at found
        · assumption
        · cases found
      · obtain ⟨_, _, other⟩ := Option.map_eq_some_iff.1 found
        cases other
    | stored address => exact .inr ⟨address, view.order_perm.mem_iff.2 has, rfl⟩

end TableView.Describes

namespace TableSession

variable {size : PageSize} {σ : Type} [PageSource σ] {model : PageModel size σ}
  {session session' : TableSession σ} {history : TableHistory} {view : TableView}
  {lost : Multiset UInt64}

/-- The addresses on all chains. -/
def listed (storages : Fin bucketCount → List UInt64) : List UInt64 :=
  (List.finRange bucketCount).flatMap storages

/-- The cache stored at an address. -/
def stored (session : TableSession σ) (address : UInt64) : Cache :=
  (session.heap.store.read address).cache

/-- The objects of a cache that store caches, where those on the chains are all. -/
def storedIn (storages : Fin bucketCount → List UInt64) : CacheRef → Multiset UInt64
  | .bootstrap => listed storages
  | .stored _ => 0

/-- The table is the map that its history says, with the given addresses on its chains. -/
structure IsMap (size : PageSize) (session : TableSession σ) (history : TableHistory)
    (storages : Fin bucketCount → List UInt64) : Prop where
  chains : ∀ b, Chain session.heap.store.next (session.table.buckets.get b) (storages b)
  buckets : ∀ b, ∀ address ∈ storages b,
    (session.stored address).objectSize.toNat % bucketCount = b.val
  bootstrapSize : session.table.bootstrap.objectSize = bootstrapClass.size
  classes : (bootstrapClass.size ::
    (listed storages).map fun address => (session.stored address).objectSize).Nodup
  nodup : (listed storages).Nodup
  slots : ∀ address ∈ listed storages,
    session.table.bootstrap.Serves size session.heap.memory address
  finds : ∀ cls, ∃ found, session.table.find session.heap.store cls = .ok found ∧
    ∀ ref, found = some ref ↔ Yields history cls ref
  sizes : ∀ cls ref, Yields history cls ref →
    (session.table.cache session.heap.store ref).objectSize = cls.size
  bootstrap : session.table.bootstrap.AccountsFor size session.heap.memory
    ((live .bootstrap history : Multiset UInt64) + (listed storages : Multiset UInt64))
  others : ∀ address ∈ listed storages,
    (session.stored address).AccountsFor size session.heap.memory (live (.stored address) history)
  stats : ∀ cls ref, Yields history cls ref →
    (session.table.cache session.heap.store ref).stats.objectSize = cls.size ∧
      (session.table.cache session.heap.store ref).stats.AccountsFor size session.heap.memory
        (live ref history + storedIn storages ref)
  walk : ∃ caches, session.table.caches session.heap.store = .ok caches ∧
    (caches.map Cache.objectSize).Nodup ∧ ∀ cache, cache ∈ caches ↔
      ∃ cls ref, Yields history cls ref ∧ session.table.cache session.heap.store ref = cache

/-- What a class finds it finds again. -/
def Keeps (session session' : TableSession σ) : Prop :=
  ∀ cls ref, session.table.find session.heap.store cls = .ok (some ref) →
    session'.table.find session'.heap.store cls = .ok (some ref)

end TableSession

namespace TableView.Backs

variable {size : PageSize} {σ : Type} [PageSource σ] {model : PageModel size σ}
  {session session' : TableSession σ} {history : TableHistory} {view view' : TableView}
  {lost lost' : Multiset UInt64} {action : TableAction} {reply : TableReply}
  (backs : view.Backs model lost session) (accounts : TableHistory.Accounts size history view)

include backs accounts

/-- A cache that can be found holds what was served from it, and the caches stored in it. -/
theorem cache_accountsFor {ref : CacheRef} (has : view.Has ref) :
    (session.table.cache session.heap.store ref).AccountsFor size session.heap.memory
      (live ref history + view.storedIn ref) := by
  have h := backs.describes
  obtain ⟨rest, focus⟩ := exists_focus backs.nodup_addresses has
  have mem := focus.mem_caches
  rw [← accounts.objects ref has]
  exact (h.cacheOf backs.sound backs.regular has).accountsFor (backs.sound.caches _ mem)
    (backs.sound.regular_of_mem backs.regular mem)

omit accounts in
/-- The bootstrap cache and the stored ones have different classes. -/
theorem nodup_classes : (bootstrapClass.size ::
    view.order.map fun address => (session.stored address).objectSize).Nodup := by
  have h := backs.describes
  have sizes := h.sizes_perm.nodup_iff.2 backs.sound.classes
  rw [CacheTable.allCaches, List.map_cons, List.map_map, h.bootstrap.objectSize,
    backs.sound.bootstrapSize] at sizes
  exact sizes

/-- A session that a view backs is a map. -/
theorem isMap_of_accounts :
    session.IsMap size history fun b => (view.bucket b).map StoredView.address := by
  have sound := backs.sound
  have regular := backs.regular
  have h := backs.describes
  have own : view.bootstrap ∈ view.caches := List.mem_cons_self
  have names : (TableSession.listed fun b => (view.bucket b).map StoredView.address).Perm
      view.addresses := view.order_perm
  constructor
  case chains => exact h.buckets
  case buckets =>
    intro b address mem
    obtain ⟨stored, inBucket, rfl⟩ := List.mem_map.1 mem
    obtain ⟨held, same⟩ := List.mem_filter.1 inBucket
    rw [TableSession.stored, (h.stored stored held).objectSize]
    exact congrArg Fin.val (of_decide_eq_true same)
  case bootstrapSize => exact h.bootstrap.objectSize.trans sound.bootstrapSize
  case classes => exact backs.nodup_classes
  case nodup => exact names.nodup_iff.2 backs.nodup_addresses
  case slots =>
    intro address mem
    have used := Multiset.mem_of_le sound.storages (Multiset.mem_coe.2 (names.mem_iff.1 mem))
    have some := CacheView.slabs_ne_nil_of_object used
    exact h.bootstrap.serves (sound.regular_of_mem regular own some) used
  case finds => exact fun cls => ⟨_, h.find_eq cls, accounts.found cls⟩
  case sizes =>
    intro cls ref yields
    obtain ⟨has, sizes⟩ := accounts.has_of_yields backs yields
    exact (h.cacheOf sound regular has).objectSize.trans sizes
  case bootstrap =>
    have has : view.Has .bootstrap := trivial
    rw [Multiset.coe_eq_coe.2 names]
    exact backs.cache_accountsFor accounts has
  case others =>
    intro address mem
    have has : view.Has (.stored address) := names.mem_iff.1 mem
    have both := backs.cache_accountsFor accounts has
    rw [TableView.storedIn, add_zero] at both
    exact both
  case stats =>
    intro cls ref yields
    obtain ⟨has, sizes⟩ := accounts.has_of_yields backs yields
    have both := (backs.cache_accountsFor accounts has).stats
    have stores : TableSession.storedIn (fun b => (view.bucket b).map StoredView.address) ref =
        view.storedIn ref := by
      cases ref with
      | bootstrap => exact Multiset.coe_eq_coe.2 names
      | stored address => rfl
    rw [stores]
    exact ⟨(h.cacheOf sound regular has).objectSize.trans sizes, both⟩
  case walk =>
    refine ⟨_, h.caches_eq, h.nodup_caches h.caches_eq sound, fun cache => ?_⟩
    rw [h.mem_caches_iff_find h.caches_eq sound regular]
    simp only [accounts.found]

/-- Without a reset in between, classes find what they found. -/
theorem keeps (backs' : view'.Backs model lost' session')
    (accounts' : TableHistory.Accounts size ((action, reply) :: history) view')
    (notReset : action ≠ .reset) : session.Keeps session' := by
  intro cls ref found
  rw [backs.describes.find_eq cls] at found
  have yields := (accounts.found cls ref).1 (Except.ok.inj found)
  rw [backs'.describes.find_eq cls, (accounts'.found cls ref).2 (yields.cons notReset)]

end TableView.Backs

/-- **The table is a finite map.**  In every reachable session the chains are finite, hold
one cache of each class in its own bucket and in a live object of its own, and a class finds
the cache created for it since the last reset.  Every permitted request is answered, and a
class finds the same cache until the next reset. -/
theorem TableSession.Reachable.isMap {size : PageSize} {σ : Type} [PageSource σ]
    {model : PageModel size σ} {session : TableSession σ} {history : TableHistory}
    (fits : size.Fits maxObjectSize) (reachable : TableSession.Reachable model session history) :
    (∃ storages, session.IsMap size history storages) ∧
      ∀ action, Permits size history action →
        ∃ reply session', perform size action session = .ok reply session' ∧
          Answers history action reply ∧ (action ≠ .reset → session.Keeps session') := by
  have bootstrapFits : size.Fits bootstrapClass.size := fits.of_le (by decide) (by decide)
  obtain ⟨view, lost, backs, accounts⟩ := reachable.exists_view bootstrapFits
  refine ⟨⟨_, backs.isMap_of_accounts accounts⟩, fun action permitted => ?_⟩
  obtain ⟨reply, session', view', lost', ends, answers, backs', accounts'⟩ :=
    backs.perform_refines accounts bootstrapFits permitted
  exact ⟨reply, session', ends, answers, backs.keeps accounts backs' accounts'⟩

/-- Two caches in one bucket, and an object served from the older one. -/
theorem TableSession.Reachable.isMap_collision :
    ∃ (model : PageModel PageSize.default (MeteredPool PageSize.default))
      (session : TableSession (MeteredPool PageSize.default)) (history : TableHistory),
      Reachable model session history ∧
        history = [(.alloc (.stored 0x11060), .object (.ok 0x12050)),
          (.findOrCreate ⟨384, by decide⟩, .created (.ok (.stored 0x110a0))),
          (.findOrCreate ⟨112, by decide⟩, .created (.ok (.stored 0x11060))),
          (.register, .done)] ∧
        (∃ storages, session.IsMap PageSize.default history storages) ∧
        ∀ action, Permits PageSize.default history action →
          ∃ reply session', perform PageSize.default action session = .ok reply session' ∧
            Answers history action reply ∧ (action ≠ .reset → session.Keeps session') := by
  have fits : PageSize.default.Fits maxObjectSize := ⟨by decide, by decide +kernel⟩
  let older : SizeClass := ⟨112, by decide⟩
  let newer : SizeClass := ⟨384, by decide⟩
  let run : List (TableAction × TableReply) := [(.register, .done),
    (.findOrCreate older, .created (.ok (.stored 0x11060))),
    (.findOrCreate newer, .created (.ok (.stored 0x110a0))),
    (.alloc (.stored 0x11060), .object (.ok 0x12050))]
  let bare : Heap (MeteredPool PageSize.default) := { source := {} }
  let extent : Extent := ⟨0x10010, 0x4000⟩
  have empty : ({} : PoolView).Describes 0 bare.source bare.memory := .fresh {}
  have fresh : ∀ page ∈ extent.pages PageSize.default, page ∉ ({} : PoolView).added :=
    fun _ _ => Multiset.notMem_zero _
  obtain ⟨heap, added, offered, _⟩ := HeapM.addMemory_adds empty fresh
  have region : onHeap (HeapM.addMemory extent.start extent.length) { heap := bare } =
    .ok _ { heap } := onHeap_ok added
  have answers : (onHeap (HeapM.addMemory extent.start extent.length) >>= fun _ =>
      (run.map Prod.fst).mapM (perform PageSize.default)).run' { heap := bare } =
        some (run.map Prod.snd) := by
    decide +kernel
  obtain ⟨session, ends⟩ := exists_ok_of_run' answers
  rw [bind_ok region] at ends
  have yields : Yields [run[2], run[1], run[0]] older (.stored 0x11060) :=
    (yields_created.2 (.inl ⟨rfl, by decide, rfl⟩)).cons nofun
  have legal : TableHistory.Legal PageSize.default [] run :=
    ⟨trivial, trivial, trivial, ⟨older, yields, fits.of_le (by decide) (by decide)⟩, trivial⟩
  have start : Reachable (MeteredPool.model fits.wide) { heap } [] := .start offered
  have reachable := start.run legal ends
  exact ⟨_, session, _, reachable, rfl, reachable.isMap fits⟩

end SlabHeap
