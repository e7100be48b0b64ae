import SlabHeap.Proofs.CacheRefinement
import SlabHeap.Proofs.TableView

/-!
# Tables refine lists of caches

A table in memory is as a view says (`TableView.Describes`) if its caches are, and
if the chain of each bucket has the stored caches of the bucket.  On such a table
`find` finds what the view finds (`TableView.Describes.find_eq`), and serving,
freeing, creating and dropping carry out the plans of the view.

An operation touches the pages of its own table, what stands before the bodies in
them, and the store where the table keeps a cache afterwards.  `TableView.Carried`
says so, and therefore several tables can share a page source and a store.
-/

namespace SlabHeap

/-! ## Storing a cache -/

theorem SizeClass.bucket_eq (cls : SizeClass) : cls.bucket = bucketOf cls.size := rfl

/-- The store after a cache was replaced. -/
def CacheStore.withCache (store : CacheStore) (ref : CacheRef) (cache : Cache) : CacheStore :=
  match ref with
  | .bootstrap => store
  | .stored address => store.write address { store.read address with cache }

/-- The table after a cache was replaced. -/
def CacheTable.withCache (table : CacheTable) (ref : CacheRef) (cache : Cache) : CacheTable :=
  match ref with
  | .bootstrap => { table with bootstrap := cache }
  | .stored _ => table

theorem CacheTable.withCache_self (table : CacheTable) (store : CacheStore) (ref : CacheRef) :
    table.withCache ref (table.cache store ref) = table := by
  cases ref <;> rfl

/-- One store has the caches of another, but for one that was replaced. -/
def CacheStore.Replaces (store' store : CacheStore) (ref : CacheRef) (cache : Cache) : Prop :=
  ∀ address, store'.read address =
    if ref = .stored address then { store.read address with cache } else store.read address

theorem CacheStore.withCache_replaces (store : CacheStore) (ref : CacheRef) (cache : Cache) :
    (store.withCache ref cache).Replaces store ref cache := by
  intro address
  cases ref with
  | bootstrap => rfl
  | stored other =>
    rw [withCache, read_write]
    simp only [CacheRef.stored.injEq, eq_comm (a := other)]
    split
    · rename_i same
      rw [same]
    · rfl

theorem CacheStore.replaces_self (store : CacheStore) (table : CacheTable) (ref : CacheRef) :
    store.Replaces store ref (table.cache store ref) := by
  intro address
  split
  · rename_i same
    rw [same, CacheTable.cache]
  · rfl

theorem CacheStore.Replaces.next {store store' : CacheStore} {ref : CacheRef} {cache : Cache}
    (h : store'.Replaces store ref cache) (address : UInt64) :
    store'.next address = store.next address := by
  rw [CacheStore.next, h address]
  split <;> rfl

/-! ## Listing caches -/

/-- The addresses of the stored caches, bucket after bucket. -/
def CacheTable.storages (table : CacheTable) (store : CacheStore) : Except Fault (List UInt64) :=
  return (← table.buckets.toList.mapM store.addresses).flatten

/-- The bootstrap cache, registered or not, and the caches stored at some addresses. -/
def CacheTable.allCaches (table : CacheTable) (store : CacheStore) (storages : List UInt64) :
    List Cache :=
  table.bootstrap :: storages.map fun address => (store.read address).cache

/-- Listing several chains. -/
theorem CacheStore.mapM_addresses {ι : Type} {store : CacheStore} {links : ι → Option UInt64}
    {chains : ι → List UInt64} (linked : ∀ b, Chain store.next (links b) (chains b))
    (buckets : List ι) : (buckets.map links).mapM store.addresses = .ok (buckets.map chains) := by
  induction buckets with
  | nil => rfl
  | cons b rest ih =>
    rw [List.map_cons, List.mapM_cons, addresses_eq (linked b), ih]
    rfl

theorem CacheTable.toList_buckets (table : CacheTable) :
    table.buckets.toList = (List.finRange bucketCount).map table.buckets.get := by
  refine List.ext_getElem (by simp) fun i _ _ => ?_
  rw [List.getElem_map, List.getElem_finRange]
  exact Vector.getElem_toList _

namespace HeapM

variable {σ : Type} {heap : Heap σ}

theorem readCache_ok (address : UInt64) :
    readCache address heap = .ok (heap.store.read address) heap := rfl

theorem writeCache_ok (address : UInt64) (stored : StoredCache) :
    writeCache address stored heap =
      .ok () { heap with store := heap.store.write address stored } := rfl

end HeapM

theorem CacheTable.setCache_ok {σ : Type} {heap : Heap σ} (table : CacheTable) (ref : CacheRef)
    (cache : Cache) : table.setCache ref cache heap =
      .ok (table.withCache ref cache) { heap with store := heap.store.withCache ref cache } := by
  cases ref <;> rfl

namespace TableView

variable {size : PageSize} {view view' : TableView} {table : CacheTable}
  {store store' : CacheStore} {memory memory' : Memory} {ref : CacheRef} {cacheView : CacheView}
  {cache : Cache} {rest : List CacheView} {others : Multiset UInt64} {cls : SizeClass}

/-- The addresses of what stands behind the tables of the slabs. -/
def bodies (size : PageSize) (view : TableView) : Set UInt64 :=
  {address | ∃ cache ∈ view.caches, address ∈ cache.bodies size}

/-- The addresses of the headers and tables of the slabs. -/
def notes (size : PageSize) (view : TableView) : Set UInt64 :=
  {address | ∃ cache ∈ view.caches, address ∈ cache.notes size}

/-- The table in memory and in the store is as the view has it. -/
structure Describes (size : PageSize) (view : TableView) (table : CacheTable)
    (store : CacheStore) (memory : Memory) : Prop where
  registered : table.registered = view.registered
  bootstrap : view.bootstrap.Describes size table.bootstrap memory
  stored : ∀ stored ∈ view.stored,
    stored.view.Describes size (store.read stored.address).cache memory
  buckets : ∀ b, Chain store.next (table.buckets.get b)
    ((view.bucket b).map StoredView.address)

theorem Sound.notes_subset_of_mem (sound : view.Sound size) (regular : view.Regular size)
    (mem : cacheView ∈ view.caches) : cacheView.notes size ⊆ size.covered cacheView.pages := by
  intro address noted
  have some : cacheView.slabs ≠ [] := by
    intro none
    obtain ⟨page, held, _⟩ := noted
    rw [CacheView.pages, none] at held
    exact absurd held (Multiset.notMem_zero _)
  exact (sound.regular_of_mem regular mem some).notes_subset_covered noted

theorem Sound.notes_subset_covered (sound : view.Sound size) (regular : view.Regular size) :
    view.notes size ⊆ size.covered view.pages := by
  rintro address ⟨cache, mem, noted⟩
  exact Multiset.mem_of_le (pages_le mem) (sound.notes_subset_of_mem regular mem noted)

namespace Describes

variable (h : view.Describes size table store memory)

include h

/-- What is known of a table depends on its notes and its storages only. -/
theorem congr (sound : view.Sound size) (regular : view.Regular size)
    (same : Set.EqOn memory'.byte memory.byte (view.notes size))
    (stores : ∀ address ∈ view.addresses, store'.read address = store.read address) :
    view.Describes size table store' memory' := by
  have kept : ∀ cache ∈ view.caches, Set.EqOn memory'.byte memory.byte (cache.notes size) :=
    fun cache mem _ noted => same ⟨cache, mem, noted⟩
  refine ⟨h.registered, ?_, fun stored mem => ?_, fun b => ?_⟩
  · exact h.bootstrap.congr (sound.regular_of_mem regular List.mem_cons_self)
      (kept _ List.mem_cons_self)
  · have member : stored.view ∈ view.caches := .tail _ (List.mem_map_of_mem mem)
    rw [stores _ (List.mem_map_of_mem mem)]
    exact (h.stored stored mem).congr (sound.regular_of_mem regular member) (kept _ member)
  · refine (h.buckets b).congr fun address mem => ?_
    obtain ⟨stored, inBucket, rfl⟩ := List.mem_map.1 mem
    have held := List.mem_of_mem_filter inBucket
    rw [CacheStore.next, CacheStore.next, stores _ (List.mem_map_of_mem held)]

/-- Finding a class in a table is finding it in the view. -/
theorem find_eq (cls : SizeClass) : table.find store cls = .ok (view.find cls) := by
  unfold CacheTable.find find
  split
  · rw [h.registered]
    rfl
  · have found : store.find? cls.size (table.buckets.get cls.bucket) =
        .ok ((view.stored.find? (·.view.objectSize = cls.size)).map StoredView.address) := by
      rw [CacheStore.find?_eq (h.buckets cls.bucket), List.find?_map, bucket, List.find?_filter]
      congr 2
      refine List.find?_congr fun stored mem => ?_
      have noted := (h.stored stored mem).objectSize
      rw [Function.comp, noted, Bool.eq_iff_iff]
      simp only [decide_eq_true_eq, beq_iff_eq, and_iff_right_iff_imp]
      intro same
      rw [same, SizeClass.bucket_eq]
    rw [found]
    simp only [bind, Except.bind, pure, Except.pure, Option.map_map]
    rfl

/-- Listing the stored caches of a table. -/
theorem storages_eq : table.storages store = .ok view.order := by
  unfold CacheTable.storages
  rw [table.toList_buckets, CacheStore.mapM_addresses h.buckets]
  rfl

/-- Listing the caches of a table. -/
theorem caches_eq : table.caches store = .ok (if table.registered then
    table.allCaches store view.order else (table.allCaches store view.order).tail) := by
  unfold CacheTable.caches
  rw [table.toList_buckets, CacheStore.mapM_addresses h.buckets]
  rfl

/-- The caches of the table and of the view, side by side. -/
theorem exists_described {cache : Cache} (mem : cache ∈ table.allCaches store view.order) :
    ∃ cacheView ∈ view.caches, cacheView.Describes size cache memory := by
  rcases List.mem_cons.1 mem with rfl | mem
  · exact ⟨view.bootstrap, List.mem_cons_self, h.bootstrap⟩
  · obtain ⟨address, listed, rfl⟩ := List.mem_map.1 mem
    obtain ⟨stored, held, rfl⟩ := List.mem_map.1 (view.order_perm.mem_iff.1 listed)
    exact ⟨stored.view, .tail _ (List.mem_map_of_mem held), h.stored stored held⟩

/-- Every cache of the view is one in memory. -/
theorem exists_cache (mem : cacheView ∈ view.caches) :
    ∃ cache, cacheView.Describes size cache memory := by
  cases mem with
  | head => exact ⟨table.bootstrap, h.bootstrap⟩
  | tail _ later =>
    obtain ⟨stored, held, rfl⟩ := List.mem_map.1 later
    exact ⟨_, h.stored stored held⟩

theorem sizes_perm : ((table.allCaches store view.order).map Cache.objectSize).Perm
    (view.caches.map CacheView.objectSize) := by
  have stored : view.addresses.map (fun address => (store.read address).cache.objectSize) =
      view.stored.map fun stored => stored.view.objectSize := by
    rw [addresses, List.map_map]
    exact List.map_congr_left fun stored mem => (h.stored stored mem).objectSize
  rw [CacheTable.allCaches, caches, List.map_cons, List.map_cons, h.bootstrap.objectSize,
    List.map_map, List.map_map]
  exact ((view.order_perm.map _).trans (.of_eq stored)).cons _

/-- Replacing a cache in the table and in the view.  The pages of the other caches
are as they were. -/
theorem setCache (sound : view.Sound size) (regular : view.Regular size)
    (focus : view.Focus ref rest) (has : view.Has ref)
    (sizes : cacheView.objectSize = (view.cache ref).objectSize)
    (described : cacheView.Describes size cache memory')
    (replaces : store'.Replaces store ref cache)
    (same : Set.EqOn memory'.byte memory.byte
      (size.covered (rest.map CacheView.pages).sum)) :
    (view.setCache ref cacheView).Describes size (table.withCache ref cache) store' memory' := by
  have kept {other : CacheView} {held : Cache} (mem : other ∈ view.caches)
      (differ : other ≠ view.cache ref) (before : other.Describes size held memory) :
      other.Describes size held memory' := by
    have inRest : other ∈ rest := by
      rcases List.mem_cons.1 (focus.before.mem_iff.1 mem) with own | other
      · exact absurd own differ
      · exact other
    exact before.congr (sound.regular_of_mem regular mem) (same.mono
      ((sound.notes_subset_of_mem regular mem).trans
        (PageSize.covered_mono (CacheView.pages_le_sum inRest))))
  cases ref with
  | bootstrap =>
    refine ⟨h.registered, described, fun stored mem => ?_, fun b => ?_⟩
    · rw [replaces stored.address, if_neg nofun]
      exact kept (.tail _ (List.mem_map_of_mem mem)) (sound.bootstrap_ne mem).symm
        (h.stored stored mem)
    · exact (h.buckets b).congr fun address _ => replaces.next address
  | stored address =>
    obtain ⟨stored, mem, rfl⟩ := List.mem_map.1 has
    obtain ⟨front, back, split, found, replaced⟩ :=
      exists_split (sound.nodup_addresses regular) mem
    rw [found] at kept sizes
    rw [replaced]
    refine ⟨h.registered, ?_, fun other mem' => ?_, fun b => ?_⟩
    · exact kept List.mem_cons_self (sound.bootstrap_ne mem) h.bootstrap
    · rw [replaces other.address]
      rcases List.mem_cons.1 (List.perm_middle.mem_iff.1 mem') with rfl | other'
      · rw [if_pos rfl]
        exact described
      · obtain ⟨held, differ⟩ := ne_of_split (sound.nodup_addresses regular) split other'
        have views : other.view ≠ stored.view := fun same =>
          differ (congrArg StoredView.address (sound.eq_of_view held mem same))
        rw [if_neg fun same => differ (CacheRef.stored.inj same).symm]
        exact kept (.tail _ (List.mem_map_of_mem held)) views (h.stored other held)
    · have names : (TableView.bucket { view with
          stored := front ++ { stored with view := cacheView } :: back } b).map
            StoredView.address = (view.bucket b).map StoredView.address := by
        simp only [bucket, split, List.filter_append, List.filter_cons, sizes, List.map_append]
        split <;> rfl
      rw [names]
      exact (h.buckets b).congr fun address _ => replaces.next address

/-- The cache of a reference is as the view has it. -/
theorem cacheOf (sound : view.Sound size) (regular : view.Regular size) (has : view.Has ref) :
    (view.cache ref).Describes size (table.cache store ref) memory := by
  cases ref with
  | bootstrap => exact h.bootstrap
  | stored address =>
    obtain ⟨stored, mem, rfl⟩ := List.mem_map.1 has
    obtain ⟨_, _, _, found, _⟩ := exists_split (sound.nodup_addresses regular) mem
    rw [found]
    exact h.stored stored mem

/-- Adding a cache to the table and to the view.  It is stored in an object that
stores no other, and it is the first of its bucket. -/
theorem addCache {table' : CacheTable} {bootstrap : CacheView} {storage : UInt64}
    (sound : view.Sound size) (regular : view.Regular size)
    (registered : table'.registered = table.registered)
    (described : bootstrap.Describes size table'.bootstrap memory')
    (fresh : storage ∉ view.addresses)
    (first : table'.buckets.get cls.bucket = some storage)
    (others : ∀ b ≠ cls.bucket, table'.buckets.get b = table.buckets.get b)
    (written : ∀ address, store'.read address = if address = storage then
      { cache := { objectSize := cls.size }, next := table.buckets.get cls.bucket }
      else store.read address)
    (same : Set.EqOn memory'.byte memory.byte
      (size.covered ((view.stored.map StoredView.view).map CacheView.pages).sum)) :
    (view.addCache cls storage bootstrap).Describes size table' store' memory' := by
  have kept {stored : StoredView} (mem : stored ∈ view.stored) :
      stored.view.Describes size (store.read stored.address).cache memory' := by
    have listed : stored.view ∈ view.stored.map StoredView.view := List.mem_map_of_mem mem
    exact (h.stored stored mem).congr (sound.regular_of_mem regular (.tail _ listed)) (same.mono
      ((sound.notes_subset_of_mem regular (.tail _ listed)).trans
        (PageSize.covered_mono (CacheView.pages_le_sum listed))))
  have unwritten {stored : StoredView} (mem : stored ∈ view.stored) :
      store'.read stored.address = store.read stored.address := by
    rw [written, if_neg]
    exact fun same => fresh (same ▸ List.mem_map_of_mem mem)
  have chain (b : Fin bucketCount) :
      Chain store'.next (table.buckets.get b) ((view.bucket b).map StoredView.address) := by
    refine (h.buckets b).congr fun address mem => ?_
    obtain ⟨stored, inBucket, rfl⟩ := List.mem_map.1 mem
    rw [CacheStore.next, CacheStore.next, unwritten (List.mem_of_mem_filter inBucket)]
  refine ⟨registered.trans h.registered, described, fun stored mem => ?_, fun b => ?_⟩
  · rcases List.mem_cons.1 mem with rfl | mem
    · rw [written, if_pos rfl]
      exact .fresh size cls.size memory'
    · rw [unwritten mem]
      exact kept mem
  · have split : (view.addCache cls storage bootstrap).bucket b =
        if cls.bucket = b then ⟨storage, { objectSize := cls.size }⟩ :: view.bucket b
        else view.bucket b := by
      simp only [bucket, TableView.addCache, List.filter_cons, SizeClass.bucket_eq,
        decide_eq_true_eq]
      rfl
    rw [split]
    by_cases same : cls.bucket = b
    · subst same
      rw [if_pos rfl]
      refine ⟨first, ?_⟩
      have second : store'.next storage = table.buckets.get cls.bucket := by
        rw [CacheStore.next, written, if_pos rfl]
      rw [second]
      exact chain cls.bucket
    · rw [if_neg same, others b fun again => same again.symm]
      exact chain b

end Describes

/-! ## What an operation leaves -/

theorem Focus.mem_bodies_before {address : UInt64} (focus : view.Focus ref rest) :
    address ∈ view.bodies size ↔
      address ∈ (view.cache ref).bodies size ∨ ∃ other ∈ rest, address ∈ other.bodies size := by
  simp only [bodies, Set.mem_ofPred_eq, focus.before.mem_iff, List.exists_mem_cons_iff]

theorem Focus.mem_bodies_after {address : UInt64} (focus : view.Focus ref rest)
    (cacheView : CacheView) : address ∈ (view.setCache ref cacheView).bodies size ↔
      address ∈ cacheView.bodies size ∨ ∃ other ∈ rest, address ∈ other.bodies size := by
  simp only [bodies, Set.mem_ofPred_eq, (focus.after cacheView).mem_iff, List.exists_mem_cons_iff]

section

variable {σ : Type} [PageSource σ] {model : PageModel size σ} {heap heap' heap'' : Heap σ}
  {source source' source'' : model.View} {view'' : TableView} {table' table'' : CacheTable}

/-- On pages from a page source a table is regular. -/
theorem Regular.of_source
    (known : model.Describes source (view.pages + others) heap.source heap.memory) :
    view.Regular size :=
  ⟨(Multiset.nodup_add.1 (model.nodup known)).1,
    fun page held => model.aligned known page (Multiset.mem_add.2 (.inl held)),
    fun page held => model.nonzero known page (Multiset.mem_add.2 (.inl held))⟩

/-- The table and the page source after an operation, and what it left alone. -/
structure Carried (model : PageModel size σ) (others : Multiset UInt64) (heap : Heap σ)
    (view : TableView) (heap' : Heap σ) (source' : model.View) (view' : TableView)
    (table' : CacheTable) : Prop where
  sound : view'.Sound size
  describes : view'.Describes size table' heap'.store heap'.memory
  source : model.Describes source' (view'.pages + others) heap'.source heap'.memory
  frame : Set.EqOn heap'.memory.byte heap.memory.byte
    (size.covered others ∪ view.bodies size ∩ view'.bodies size)
  store : ∀ address ∉ view'.addresses, heap'.store.read address = heap.store.read address

namespace Carried

theorem refl (sound : view.Sound size) (h : view.Describes size table heap.store heap.memory)
    (known : model.Describes source (view.pages + others) heap.source heap.memory) :
    Carried model others heap view heap source view table :=
  ⟨sound, h, known, fun _ _ => rfl, fun _ _ => rfl⟩

theorem trans (first : Carried model others heap view heap' source' view' table')
    (second : Carried model others heap' view' heap'' source'' view'' table'')
    (between : view.bodies size ∩ view''.bodies size ⊆ view'.bodies size)
    (names : view'.addresses ⊆ view''.addresses) :
    Carried model others heap view heap'' source'' view'' table'' := by
  refine ⟨second.sound, second.describes, second.source, fun address mem => ?_,
    fun address unused => (second.store address unused).trans
      (first.store address fun used => unused (names used))⟩
  have inner : address ∈ size.covered others ∪ view'.bodies size ∩ view''.bodies size :=
    mem.imp_right fun both => ⟨between both, both.2⟩
  have outer : address ∈ size.covered others ∪ view.bodies size ∩ view'.bodies size :=
    mem.imp_right fun both => ⟨both.1, between both⟩
  exact (second.frame inner).trans (first.frame outer)

/-- An operation of one cache, after which the cache is replaced. -/
theorem setCache (sound : view.Sound size)
    (h : view.Describes size table heap.store heap.memory)
    (known : model.Describes source (view.pages + others) heap.source heap.memory)
    (has : view.Has ref) (focus : view.Focus ref rest)
    (sizes : cacheView.objectSize = (view.cache ref).objectSize)
    (good : (view.setCache ref cacheView).Sound size)
    (carried : CacheView.Carried model ((rest.map CacheView.pages).sum + others) heap
      (view.cache ref) heap' source' cacheView cache)
    (replaces : store'.Replaces heap.store ref cache) :
    Carried model others heap view { heap' with store := store' } source'
      (view.setCache ref cacheView) (table.withCache ref cache) := by
  have regular := Regular.of_source known
  refine ⟨good, ?_, ?_, carried.frame.mono ?_, fun address unused => ?_⟩
  · refine h.setCache sound regular focus has sizes carried.describes replaces
      (carried.frame.mono ?_)
    exact (PageSize.covered_mono (Multiset.le_add_right _ _)).trans Set.subset_union_left
  · rw [focus.pages_after, add_assoc]
    exact carried.source
  · rintro address (other | ⟨before, after⟩)
    · exact .inl (Multiset.mem_add.2 (.inr other))
    · rcases focus.mem_bodies_before.1 before with own | ⟨cache, listed, inside⟩
      · rcases (focus.mem_bodies_after cacheView).1 after with own' | ⟨cache, listed, inside⟩
        · exact .inr ⟨own, own'⟩
        · exact .inl (Multiset.mem_add.2 (.inl
            (Multiset.mem_of_le (CacheView.pages_le_sum listed) inside.1)))
      · exact .inl (Multiset.mem_add.2 (.inl
          (Multiset.mem_of_le (CacheView.pages_le_sum listed) inside.1)))
  · rw [replaces address, if_neg]
    rintro rfl
    rw [focus.addresses] at unused
    exact unused has

/-- Caches of other tables are stored in pages of others, and left as they were. -/
theorem read_of_others {address : UInt64}
    (carried : Carried model others heap view heap' source' view' table')
    (other : size.pageOf address ∈ others) :
    heap'.store.read address = heap.store.read address := by
  refine carried.store address fun used => ?_
  have own := carried.sound.pageOf_address (.of_source carried.source) used
  exact Multiset.disjoint_left.1 (Multiset.nodup_add.1 (model.nodup carried.source)).2.2 own other

end Carried

end

end TableView

end SlabHeap
