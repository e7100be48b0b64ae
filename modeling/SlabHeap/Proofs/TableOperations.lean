import SlabHeap.Proofs.TableRefinement

/-!
# The operations of a table carry out their plans

Serving from a cache that was found, creating a cache and finding or creating one
carry out the plans of the view on any page source.  After each of them the table
is again as its view says, the users hold what they held and the object served
(`TableView.Served`), and the pages of others are as they were.
-/

namespace SlabHeap

open TableView

/-- An address that is aligned for objects is aligned for a stored cache. -/
theorem isAligned_eight {address : UInt64} (aligned : address % objectAlign = 0) :
    isAligned address 8 = .ok true := by
  have unit : objectAlign.toNat = 16 := rfl
  have eight : (8 : UInt64).toNat = 8 := rfl
  have rest := congrArg UInt64.toNat aligned
  rw [UInt64.toNat_mod, unit, UInt64.toNat_zero] at rest
  rw [isAligned_eq_ok ⟨3, rfl⟩, eight, decide_eq_true (by omega)]

section

variable {size : PageSize} {σ : Type} [PageSource σ] {model : PageModel size σ}
  {heap heap' heap'' : Heap σ} {source source' source'' : model.View}
  {view view' view'' : TableView} {table table' table'' : CacheTable} {ref : CacheRef}
  {cls : SizeClass} {others : Multiset UInt64} {blocks blocks' : Multiset Block}

/-- A table that served some blocks, and what this left alone. -/
structure TableView.Served (model : PageModel size σ) (others : Multiset UInt64) (heap : Heap σ)
    (view : TableView) (blocks : Multiset Block) (heap' : Heap σ) (source' : model.View)
    (view' : TableView) (table' : CacheTable) : Prop
    extends Carried model others heap view heap' source' view' table' where
  users : view'.users size = blocks + view.users size
  bodies : view.bodies size ⊆ view'.bodies size
  addresses : view.addresses ⊆ view'.addresses
  registered : view'.registered = view.registered

theorem TableView.Served.trans
    (first : Served model others heap view blocks heap' source' view' table')
    (second : Served model others heap' view' blocks' heap'' source'' view'' table'') :
    Served model others heap view (blocks' + blocks) heap'' source'' view'' table'' := by
  refine ⟨first.toCarried.trans second.toCarried (fun address both => first.bodies both.1)
    second.addresses, ?_, first.bodies.trans second.bodies,
    List.Subset.trans first.addresses second.addresses, second.registered.trans first.registered⟩
  rw [second.users, first.users, add_assoc]

/-- Reporting changes nothing of it. -/
theorem TableView.Served.noted
    (served : Served model others heap view blocks heap' source' view' table')
    (journal : List Event) :
    Served model others heap view blocks { heap' with journal } source' view' table' :=
  ⟨⟨served.sound, served.describes, served.source, served.frame, served.store⟩, served.users,
    served.bodies, served.addresses, served.registered⟩

theorem TableView.Served.of_noted {journal : List Event}
    (served : Served model others { heap with journal } view blocks heap' source' view' table') :
    Served model others heap view blocks heap' source' view' table' :=
  ⟨⟨served.sound, served.describes, served.source, served.frame, served.store⟩, served.users,
    served.bodies, served.addresses, served.registered⟩

/-- A table that lost some blocks to be freed, and what this left alone. -/
structure TableView.Freed (model : PageModel size σ) (others : Multiset UInt64) (heap : Heap σ)
    (view : TableView) (blocks : Multiset Block) (heap' : Heap σ) (source' : model.View)
    (view' : TableView) (table' : CacheTable) : Prop
    extends Carried model others heap view heap' source' view' table' where
  users : view.users size = blocks + view'.users size
  registered : view'.registered = view.registered

variable (sound : view.Sound size)
  (h : view.Describes size table heap.store heap.memory)
  (known : model.Describes source (view.pages + others) heap.source heap.memory)

include sound h known

/-- Nothing was served. -/
theorem TableView.Served.refl : Served model others heap view 0 heap source view table :=
  ⟨.refl sound h known, (Multiset.zero_add _).symm, fun _ inside => inside, List.Subset.refl _,
    rfl⟩

/-- Serving an object from a cache that was found. -/
theorem CacheTable.allocFrom_follows (has : view.Has ref)
    (fits : size.Fits (view.cache ref).objectSize) :
    Follows model (table.allocFrom size ref) (view.allocFrom size ref) heap source
      fun result answer heap' source' => ∃ table',
        result = answer.1.map (fun object => (object, table')) ∧
        Served model others heap view ((granted answer.1).map fun object =>
          ⟨object, (view.cache ref).objectSize⟩) heap' source' answer.2 table' ∧
        ∀ error, answer.1 = .error error → table' = table := by
  have regular := Regular.of_source known
  obtain ⟨rest, focus⟩ := exists_focus (sound.nodup_addresses regular) has
  have good := sound.caches _ focus.mem_caches
  rw [focus.pages_before, add_assoc] at known
  have served := (Cache.alloc_follows fits good (h.cacheOf sound regular has) known).always
    (CacheView.alloc_always fits good)
  unfold allocFrom TableView.allocFrom
  refine .step get_ok (served.bind ?_)
  rintro _ ⟨answer, cacheView⟩ heap' source' ⟨⟨cache, rfl, refused, carried⟩, allocated⟩
  rw [← add_assoc, ← focus.pages_before] at known
  obtain ⟨soundServed, users⟩ := sound.served focus allocated
  have bodies : view.bodies size ⊆ (view.setCache ref cacheView).bodies size := by
    intro address inside
    refine (focus.mem_bodies_after cacheView).2 ((focus.mem_bodies_before.1 inside).imp_left ?_)
    exact fun own => CacheView.bodies_mono allocated.objectSize allocated.pages own
  have names : view.addresses ⊆ (view.setCache ref cacheView).addresses := by
    rw [focus.addresses]
    exact List.Subset.refl _
  have carriedWith {store : CacheStore} (replaces : store.Replaces heap.store ref cache) :=
    Carried.setCache sound h known has focus allocated.objectSize soundServed carried replaces
  cases answer with
  | error error =>
    have kept := refused error rfl
    refine .done ⟨table, rfl, ⟨?_, users, bodies, names, focus.registered cacheView⟩,
      fun _ _ => rfl⟩
    have same := carriedWith (kept ▸ heap.store.replaces_self table ref)
    rw [kept, table.withCache_self] at same
    rw [← carried.store] at same
    exact same
  | ok object =>
    refine .step (table.setCache_ok ref cache) (.done ⟨_, rfl, ⟨carriedWith ?_, users, bodies,
      names, focus.registered cacheView⟩, nofun⟩)
    rw [carried.store]
    exact heap.store.withCache_replaces ref cache

/-- The bootstrap cache served an object, and a cache is stored in it. -/
theorem TableView.Served.created {storage : UInt64} {bootstrap : CacheView} {cache : Cache}
    (fits : size.Fits bootstrap.objectSize) (registered : view.registered = true)
    (absent : ∀ cache ∈ view.caches, cache.objectSize ≠ cls.size)
    (allocated : view.bootstrap.Allocated size (.ok storage) bootstrap)
    (carried : CacheView.Carried model
      (((view.stored.map StoredView.view).map CacheView.pages).sum + others) heap view.bootstrap
      heap' source' bootstrap cache) :
    Served model others heap view 0
      { heap' with
        store := heap'.store.write storage
          { cache := { objectSize := cls.size }, next := table.buckets.get cls.bucket } }
      source' (view.addCache cls storage bootstrap)
      { table with
        bootstrap := cache
        buckets := table.buckets.set cls.bucket (some storage) cls.bucket.isLt } := by
  have grown : bootstrap.objects size = storage ::ₘ view.bootstrap.objects size :=
    allocated.objects
  have served : storage ∈ bootstrap.objects size := grown ▸ Multiset.mem_cons_self _ _
  have regular := allocated.sound.regular_of_source fits carried.source
  have larger : view.bootstrap.bodies size ⊆ bootstrap.bodies size :=
    CacheView.bodies_mono allocated.objectSize allocated.pages
  have fresh : storage ∉ view.addresses := by
    intro used
    have nodup := regular.nodup_objects
    rw [grown, Multiset.nodup_cons] at nodup
    exact nodup.1 (Multiset.mem_of_le sound.storages (Multiset.mem_coe.2 used))
  obtain ⟨soundCreated, users⟩ := sound.created registered absent allocated
  refine ⟨⟨soundCreated, ?_, ?_, ?_, fun address unused => ?_⟩, ?_, ?_,
    List.subset_cons_self _ _, rfl⟩
  · refine h.addCache sound (.of_source known) rfl carried.describes fresh (get_set_self _ _ _)
      (fun b other => get_set_of_ne _ _ other) (fun address => ?_) (carried.frame.mono ?_)
    · rw [CacheStore.read_write, carried.store]
    · exact (PageSize.covered_mono (Multiset.le_add_right _ _)).trans Set.subset_union_left
  · have source := carried.source
    rw [← add_assoc, ← pages_addCache cls storage bootstrap] at source
    exact source
  · refine carried.frame.mono ?_
    rintro address (other | ⟨before, _⟩)
    · exact .inl (Multiset.mem_add.2 (.inr other))
    · rcases (focus_bootstrap view).mem_bodies_before.1 before with own | ⟨cache, listed, inside⟩
      · exact .inr ⟨own, larger own⟩
      · exact .inl (Multiset.mem_add.2 (.inl
          (Multiset.mem_of_le (CacheView.pages_le_sum listed) inside.1)))
  · dsimp only
    rw [CacheStore.read_write, carried.store, if_neg]
    rintro rfl
    exact unused List.mem_cons_self
  · rw [users, Multiset.zero_add]
  · rintro address ⟨cache, mem, inside⟩
    rcases List.mem_cons.1 mem with rfl | listed
    · exact ⟨bootstrap, List.mem_cons_self, larger inside⟩
    · exact ⟨cache, .tail _ (.tail _ listed), inside⟩

/-- Creating the cache of a class. -/
theorem CacheTable.create_follows (fits : size.Fits bootstrapClass.size)
    (absent : view.find cls = none) :
    Follows model (table.create size cls) (view.create size cls) heap source
      fun result answer heap' source' => ∃ table',
        result = (answer.1, table') ∧
        Served model others heap view 0 heap' source' answer.2 table' ∧
        (∀ error, answer.1 = .error error → table' = table) ∧
        ∀ ref, answer.1 = .ok ref →
          answer.2.Has ref ∧ (answer.2.cache ref).objectSize = cls.size := by
  have focus := focus_bootstrap view
  have own : view.bootstrap ∈ view.caches := List.mem_cons_self
  have good := sound.caches _ own
  have kept := Served.refl sound h known
  unfold create TableView.create
  rcases registered : view.registered with _ | _
  · have closed : ¬ table.registered = true := by
      rw [h.registered, registered]
      exact Bool.false_ne_true
    rw [if_neg closed, if_neg Bool.false_ne_true]
    exact .step (HeapM.report_ok _)
      (.done ⟨table, rfl, kept.noted _, fun _ _ => rfl, nofun⟩)
  have opened : table.registered = true := h.registered.trans registered
  rw [if_pos opened, if_pos rfl]
  rw [← sound.bootstrapSize] at fits
  have split := known
  rw [focus.pages_before, add_assoc] at split
  have served := (Cache.alloc_follows fits good h.bootstrap split).always
    (CacheView.alloc_always fits good)
  refine served.bind ?_
  rintro _ ⟨answer, bootstrap⟩ heap' source' ⟨⟨cache, rfl, refused, carried⟩, allocated⟩
  cases answer with
  | error error =>
    obtain rfl : bootstrap = view.bootstrap := allocated.refused error rfl
    obtain rfl : cache = table.bootstrap := refused error rfl
    have has : view.Has .bootstrap := trivial
    have replaces : heap'.store.Replaces heap.store .bootstrap table.bootstrap := by
      rw [carried.store]
      exact heap.store.replaces_self table .bootstrap
    have same := Carried.setCache sound h known has focus rfl sound carried replaces
    exact .done ⟨table, rfl, ⟨same, kept.users, kept.bodies, kept.addresses, rfl⟩, fun _ _ => rfl,
      nofun⟩
  | ok storage =>
    have sizes := allocated.objectSize
    rw [← sizes] at fits
    have grown : bootstrap.objects size = storage ::ₘ view.bootstrap.objects size :=
      allocated.objects
    have block : ⟨storage, bootstrap.objectSize⟩ ∈ bootstrap.blocks size :=
      CacheView.mem_blocks.2 ⟨grown ▸ Multiset.mem_cons_self _ _, rfl⟩
    have placed := (allocated.sound.regular_of_source fits carried.source).placed
      (sizes ▸ sound.rounded _ own) block
    have created := Served.created sound h known fits registered
      (find_none absent registered sound.bootstrapSize) allocated carried
    refine .step (HeapM.check_of_ok (isAligned_eight placed.aligned)) (.step
      (HeapM.writeCache_ok _ _) (.step (HeapM.report_ok _) (.done ⟨_, rfl, created.noted _, nofun,
        ?_⟩)))
    rintro _ ⟨⟩
    refine ⟨List.mem_cons_self, ?_⟩
    simp only [TableView.cache, addCache, List.find?_cons, decide_true, Option.map_some,
      Option.getD_some]

/-- Finding the cache of a class, or creating it. -/
theorem CacheTable.provide_follows (fits : size.Fits bootstrapClass.size) :
    Follows model (table.provide size cls) (view.findOrCreate size cls) heap source
      fun result answer heap' source' => ∃ table',
        result = (answer.1, table') ∧
        Served model others heap view 0 heap' source' answer.2 table' ∧
        (∀ error, answer.1 = .error error → table' = table) ∧
        ∀ ref, answer.1 = .ok ref →
          answer.2.Has ref ∧ (answer.2.cache ref).objectSize = cls.size := by
  unfold provide TableView.findOrCreate
  refine .step get_ok (.step (HeapM.check_of_ok (h.find_eq cls)) ?_)
  cases found : view.find cls with
  | some ref =>
    refine .done ⟨table, rfl, .refl sound h known, fun _ _ => rfl, ?_⟩
    rintro _ ⟨⟩
    exact find_some sound (Regular.of_source known) found
  | none => exact create_follows sound h known fits found

/-- Putting an object of a user back into the cache of its class. -/
theorem CacheTable.freeTo_follows {object : UInt64} (has : view.Has ref)
    (mem : ⟨object, (view.cache ref).objectSize⟩ ∈ view.users size) :
    Follows model (table.freeTo size ref object) (view.freeTo size ref object) heap source
      fun table' view' heap' source' =>
        Freed model others heap view {⟨object, (view.cache ref).objectSize⟩} heap' source' view'
          table' := by
  have regular := Regular.of_source known
  obtain ⟨rest, focus⟩ := exists_focus (sound.nodup_addresses regular) has
  have good := sound.caches _ focus.mem_caches
  have held := sound.mem_objects_of_users regular focus.mem_caches mem
  have fits := good.fits (CacheView.slabs_ne_nil_of_object held)
  have own := sound.regular_of_mem regular focus.mem_caches (CacheView.slabs_ne_nil_of_object held)
  have split := known
  rw [focus.pages_before, add_assoc] at split
  have freed := (Cache.free_follows fits good (h.cacheOf sound regular has) split held).always
    (CacheView.free_always own good held)
  unfold freeTo TableView.freeTo
  refine .step get_ok (freed.bind ?_)
  rintro cache cacheView heap' source' ⟨carried, freed⟩
  obtain ⟨soundFreed, users⟩ := sound.freed regular focus mem freed
  refine .last (table.setCache_ok ref cache) ⟨?_, users, focus.registered cacheView⟩
  refine Carried.setCache sound h known has focus freed.objectSize soundFreed carried ?_
  rw [carried.store]
  exact heap.store.withCache_replaces ref cache

end

/-! ## Dropping all caches -/

section

variable {size : PageSize} {σ : Type} [PageSource σ] {heap heap' : Heap σ} {cache cache' : Cache}
  {slab : Slab} {object : UInt64}

theorem Cache.live_of_settle (ends : cache.settle slab heap = .ok cache' heap') :
    cache'.live = cache.live := by
  unfold settle at ends
  obtain ⟨memory, _, _, ends⟩ := exists_ok_of_bind ends
  split at ends
  · obtain ⟨⟨listed, space⟩, _, _, ends⟩ := exists_ok_of_bind ends
    cases listed with
    | true =>
      obtain ⟨_, _, _, ends⟩ := exists_ok_of_bind ends
      obtain ⟨pages, _, _, ends⟩ := exists_ok_of_bind ends
      cases ends
      rfl
    | false =>
      obtain ⟨_, _, stopped, _⟩ := exists_ok_of_bind ends
      cases stopped
  · cases ends
    rfl

/-- An object that is put back is no longer counted.  Where none is counted none is put back. -/
theorem Cache.live_of_free (ends : cache.free size object heap = .ok cache' heap') :
    cache'.live.toNat + 1 = cache.live.toNat := by
  -- the last steps leave the count, whatever the list of slabs is
  have finish {slab : Slab} {slot : UInt64} {counted : Cache} {between : Heap σ}
      (rest : (do
        HeapM.inMemory fun memory => return ((), ← slab.release memory slot)
        counted.settle slab : HeapM σ Cache) between = .ok cache' heap') :
      cache'.live = counted.live := by
    obtain ⟨_, _, _, settled⟩ := exists_ok_of_bind rest
    exact live_of_settle settled
  unfold free at ends
  obtain ⟨slab, _, _, ends⟩ := exists_ok_of_bind ends
  obtain ⟨_, _, _, ends⟩ := exists_ok_of_bind ends
  obtain ⟨slot, _, _, ends⟩ := exists_ok_of_bind ends
  split at ends
  · obtain ⟨_, _, stopped, _⟩ := exists_ok_of_bind ends
    cases stopped
  · rename_i some
    have nonzero : cache.live.toNat ≠ 0 := fun zero => some (UInt64.toNat_inj.1 zero)
    rw [← (checkedSub_one (Nat.pos_of_ne_zero nonzero)).2, Nat.add_right_cancel_iff]
    obtain ⟨_, _, _, ends⟩ := exists_ok_of_bind ends
    split at ends
    · obtain ⟨_, _, _, ends⟩ := exists_ok_of_bind ends
      exact congrArg UInt64.toNat (finish ends)
    · exact congrArg UInt64.toNat (finish ends)

theorem CacheTable.live_of_drop (ends : drop size cache object heap = .ok cache' heap') :
    cache'.live.toNat + 1 = cache.live.toNat := by
  unfold drop at ends
  obtain ⟨_, _, _, ends⟩ := exists_ok_of_bind ends
  dsimp only at ends
  split at ends
  · obtain ⟨_, _, _, ends⟩ := exists_ok_of_bind ends
    exact Cache.live_of_free ends
  · exact Cache.live_of_free ends

/-- A walk that may drop more caches than there are live objects is not stopped by its bound, so
all such bounds give the same walk. -/
theorem CacheTable.dropWithin_eq {left left' : Nat} (enough : cache.live.toNat < left)
    (enough' : cache.live.toNat < left') (link : Option UInt64) (heap : Heap σ) :
    dropWithin size left cache link heap = dropWithin size left' cache link heap := by
  induction left generalizing left' cache link heap with
  | zero => exact absurd enough (Nat.not_lt_zero _)
  | succ left ih =>
    obtain ⟨left', rfl⟩ := Nat.exists_eq_succ_of_ne_zero (Nat.ne_zero_of_lt enough')
    cases link with
    | none => rfl
    | some address =>
      unfold dropWithin
      rw [bind_ok (HeapM.readCache_ok address), bind_ok (HeapM.readCache_ok address)]
      cases dropped : drop size cache address heap with
      | error fault between => rw [bind_error dropped, bind_error dropped]
      | ok cache' between =>
        have fewer := live_of_drop dropped
        rw [bind_ok dropped, bind_ok dropped]
        exact ih (by omega) (by omega) _ between

end

section

variable {size : PageSize} {σ : Type} [PageSource σ] {model : PageModel size σ}
  {heap heap' heap'' : Heap σ} {source source' source'' : model.View}
  {bootstrap bootstrap' bootstrap'' : CacheView} {cache cache' cache'' : Cache} {object : UInt64}
  {addresses : List UInt64} {others : Multiset UInt64}
  (sound : bootstrap.Sound size)
  (h : bootstrap.Describes size cache heap.memory)
  (known : model.Describes source (bootstrap.pages + others) heap.source heap.memory)

include sound h known

/-- Dropping a stored cache gives its storage back. -/
theorem CacheTable.drop_follows (mem : object ∈ bootstrap.objects size) :
    Follows model (drop size cache object) (bootstrap.free size object) heap source
      fun cache' bootstrap' heap' source' =>
        CacheView.Carried model others heap bootstrap heap' source' bootstrap' cache' ∧
        bootstrap.Freed size {object} bootstrap' := by
  have fits := sound.fits (CacheView.slabs_ne_nil_of_object mem)
  have always := CacheView.free_always (sound.regular_of_source fits known) sound mem
  have noted (journal : List Event) : Follows model (cache.free size object)
      (bootstrap.free size object) { heap with journal } source
      fun cache' bootstrap' heap' source' =>
        CacheView.Carried model others heap bootstrap heap' source' bootstrap' cache' ∧
        bootstrap.Freed size {object} bootstrap' := by
    have h' : bootstrap.Describes size cache ({ heap with journal } : Heap σ).memory := h
    refine ((Cache.free_follows fits sound h' known mem).always always).mono ?_
    intro cache' bootstrap' heap' source' ⟨carried, freed⟩
    exact ⟨⟨carried.describes, carried.source, carried.frame, carried.store⟩, freed⟩
  unfold drop
  refine .step (HeapM.readCache_ok _) ?_
  dsimp only
  split
  · exact .step (HeapM.report_ok _) (noted _)
  · exact noted heap.journal

/-- Dropping the caches of a chain.  The objects that store them are live, so the bound is not
reached. -/
theorem CacheTable.dropWithin_follows {link : Option UInt64} {left : Nat}
    (chain : Chain heap.store.next link addresses) (few : addresses.length ≤ left)
    (stored : (addresses : Multiset UInt64) ≤ bootstrap.objects size) :
    Follows model (dropWithin size left cache link)
      (addresses.foldlM (fun bootstrap address => bootstrap.free size address) bootstrap) heap
      source fun cache' bootstrap' heap' source' =>
        CacheView.Carried model others heap bootstrap heap' source' bootstrap' cache' ∧
        bootstrap.Freed size addresses bootstrap' := by
  induction addresses generalizing bootstrap cache heap source link left with
  | nil =>
    obtain rfl := chain
    unfold dropWithin
    exact .done ⟨.refl h known, .refl sound⟩
  | cons address rest ih =>
    obtain ⟨rfl, tail⟩ := chain
    obtain ⟨left, rfl⟩ := Nat.exists_eq_succ_of_ne_zero (Nat.ne_zero_of_lt few)
    rw [← Multiset.cons_coe] at stored
    have mem := Multiset.mem_of_le stored (Multiset.mem_cons_self address _)
    rw [List.foldlM_cons]
    unfold dropWithin
    refine .step (HeapM.readCache_ok _) ((drop_follows sound h known mem).bind ?_)
    intro cache' bootstrap' heap' source' ⟨carried, freed⟩
    have later : (rest : Multiset UInt64) ≤ bootstrap'.objects size := by
      rw [freed.objects, Multiset.singleton_add] at stored
      exact (Multiset.cons_le_cons_iff _).1 stored
    -- what was read before the storage was given back is still the successor
    have tail' : Chain heap'.store.next (heap.store.read address).next rest := by
      rw [carried.store]
      exact tail
    refine (ih freed.sound carried.describes carried.source tail'
      (Nat.le_of_succ_le_succ few) later).mono ?_
    intro cache'' bootstrap'' heap'' source'' ⟨carried', freed'⟩
    refine ⟨carried.trans carried' fun _ both => ?_, freed.trans freed'⟩
    exact CacheView.bodies_mono freed'.objectSize.symm freed'.pages both.2

/-- Dropping the caches of a chain.  It is no longer than there are live objects. -/
theorem CacheTable.dropChain_follows {link : Option UInt64}
    (chain : Chain heap.store.next link addresses)
    (stored : (addresses : Multiset UInt64) ≤ bootstrap.objects size) :
    Follows model (dropChain size cache link)
      (addresses.foldlM (fun bootstrap address => bootstrap.free size address) bootstrap) heap
      source fun cache' bootstrap' heap' source' =>
        CacheView.Carried model others heap bootstrap heap' source' bootstrap' cache' ∧
        bootstrap.Freed size addresses bootstrap' := by
  have few := Multiset.card_le_card stored
  rw [Multiset.coe_card, ← h.live] at few
  exact dropWithin_follows sound h known chain (Nat.le_succ_of_le few) stored

/-- Dropping the caches of several chains. -/
theorem CacheTable.dropChains_follows {links : Fin bucketCount → Option UInt64}
    {chains : Fin bucketCount → List UInt64} {buckets : List (Fin bucketCount)}
    (linked : ∀ b, Chain heap.store.next (links b) (chains b))
    (stored : (buckets.flatMap chains : Multiset UInt64) ≤ bootstrap.objects size) :
    Follows model ((buckets.map links).foldlM (dropChain size) cache)
      ((buckets.flatMap chains).foldlM (fun bootstrap address => bootstrap.free size address)
        bootstrap) heap
      source fun cache' bootstrap' heap' source' =>
        CacheView.Carried model others heap bootstrap heap' source' bootstrap' cache' ∧
        bootstrap.Freed size (buckets.flatMap chains) bootstrap' := by
  induction buckets generalizing bootstrap cache heap source with
  | nil => exact .done ⟨.refl h known, .refl sound⟩
  | cons b rest ih =>
    rw [List.flatMap_cons, ← Multiset.coe_add] at stored
    rw [List.map_cons, List.foldlM_cons, List.flatMap_cons, List.foldlM_append]
    refine (dropChain_follows sound h known (linked b)
      (le_trans (Multiset.le_add_right _ _) stored)).bind ?_
    intro cache' bootstrap' heap' source' ⟨carried, freed⟩
    rw [freed.objects, Multiset.add_le_add_iff_left] at stored
    rw [← carried.store] at linked
    refine (ih freed.sound carried.describes carried.source linked stored).mono ?_
    intro cache'' bootstrap'' heap'' source'' ⟨carried', freed'⟩
    refine ⟨carried.trans carried' fun _ both => ?_, ?_⟩
    · exact CacheView.bodies_mono freed'.objectSize.symm freed'.pages both.2
    · rw [← Multiset.coe_add]
      exact freed.trans freed'

end

section

variable {size : PageSize} {σ : Type} [PageSource σ] {model : PageModel size σ}
  {heap : Heap σ} {source : model.View} {view : TableView} {table : CacheTable}
  {others : Multiset UInt64}

/-- A table that dropped its caches.  Their pages are left as they were, like those
of others, and their objects are not the table's any more. -/
structure TableView.Dropped (model : PageModel size σ) (others : Multiset UInt64) (heap : Heap σ)
    (view : TableView) (heap' : Heap σ) (source' : model.View) (view' : TableView)
    (table' : CacheTable) : Prop
    extends Carried model (((view.stored.map StoredView.view).map CacheView.pages).sum + others)
      heap view heap' source' view' table' where
  users : view.users size =
    ((view.stored.map StoredView.view).map (CacheView.blocks size)).sum + view'.users size
  stored : view'.stored = []
  registered : view'.registered = false

/-- Without the caches that it stored, a bootstrap cache has its users' blocks. -/
theorem TableView.users_reset {bootstrap : CacheView} (sound : view.Sound size)
    (freed : view.bootstrap.Freed size view.order bootstrap) : view.users size =
      ((view.stored.map StoredView.view).map (CacheView.blocks size)).sum +
        ({ bootstrap } : TableView).users size := by
  have left : ({ bootstrap } : TableView).users size = bootstrap.blocks size :=
    (tsub_zero _).trans (add_zero _)
  have own : view.bootstrap.blocks size = view.storages + bootstrap.blocks size := by
    rw [CacheView.blocks, CacheView.blocks, freed.objectSize, freed.objects, Multiset.map_add,
      Multiset.coe_eq_coe.2 view.order_perm, TableView.storages, sound.bootstrapSize]
  have all : view.blocks size = view.bootstrap.blocks size +
      ((view.stored.map StoredView.view).map (CacheView.blocks size)).sum :=
    (focus_bootstrap view).blocks_before
  rw [left, TableView.users, all, own, add_assoc, add_tsub_cancel_left, add_comm]

/-- Dropping all caches of a table. -/
theorem CacheTable.reset_follows (sound : view.Sound size)
    (h : view.Describes size table heap.store heap.memory)
    (known : model.Describes source (view.pages + others) heap.source heap.memory) :
    Follows model (table.reset size) (view.reset size) heap source
      fun table' view' heap' source' =>
        Dropped model others heap view heap' source' view' table' := by
  have focus := focus_bootstrap view
  have good := sound.caches _ focus.mem_caches
  have stored : (view.order : Multiset UInt64) ≤ view.bootstrap.objects size := by
    rw [Multiset.coe_eq_coe.2 view.order_perm]
    exact sound.storages
  have split := known
  rw [focus.pages_before, add_assoc] at split
  unfold reset TableView.reset
  rw [table.toList_buckets]
  refine (dropChains_follows good h.bootstrap split h.buckets stored).bind ?_
  intro cache bootstrap heap' source' ended
  obtain ⟨carried, freed⟩ := ended
  have sizes : bootstrap.objectSize = view.bootstrap.objectSize := freed.objectSize
  have pages : ({ bootstrap } : TableView).pages = bootstrap.pages := add_zero _
  have shrunk : bootstrap.bodies size ⊆ view.bootstrap.bodies size :=
    CacheView.bodies_mono sizes.symm freed.pages
  have dropped (journal : List Event) : Dropped model others heap view { heap' with journal }
      source' { bootstrap } { bootstrap := cache } := by
    refine ⟨⟨.alone (sizes.trans sound.bootstrapSize) freed.sound false,
      ⟨rfl, carried.describes, fun _ mem => absurd mem List.not_mem_nil, fun b => ?_⟩, ?_,
      carried.frame.mono ?_, fun address _ => ?_⟩, users_reset sound freed, rfl, rfl⟩
    · exact Vector.getElem_replicate b.isLt
    · rw [pages]
      exact carried.source
    · rintro address (other | ⟨_, cache, own, inside⟩)
      · exact .inl other
      · rw [List.mem_singleton.1 own] at inside
        exact .inr ⟨shrunk inside, inside⟩
    · rw [carried.store]
  dsimp only
  split
  · exact .step (HeapM.report_ok _) (.done (dropped _))
  · exact .done (dropped heap'.journal)

end

end SlabHeap
