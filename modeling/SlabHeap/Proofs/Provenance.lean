import SlabHeap.Proofs.AllocationStages
import SlabHeap.Proofs.FoundCaches
import SlabHeap.Proofs.TableUpdates

/-!
# Which cache an object comes from

Serving looks for a cache by the class of the request, and freeing by the size that is noted in the
page of the object.  That both come to the same cache is `SharedHeap.Reachable.leads_back`.

An address alone does not tell which cache is meant, as another cache may be stored there after a
teardown.  So runs are traced (`SharedHeap.Traced`).  A trace remembers of each object what was
asked for, the cache that it comes from, and the heaps since then.  No operation looks at it, and
every reachable heap has one (`SharedHeap.Reachable.exists_traced`).

Only a teardown drops caches (`SharedView.Describes.perform_stays`), and the objects that users keep
then are those of the bootstrap cache, which stays (`SharedView.Describes.teardown_keeps`).  So the
cache of an object is there as long as the object.  It is the only one of its class in the table,
and the class is the one noted in the page.
-/

namespace SlabHeap

variable {size : PageSize} {count : Nat}

/-! ## Caches that stay -/

namespace TableView

variable {view view' view'' : TableView} {ref : CacheRef} {cache bootstrap : CacheView}
  {cls : SizeClass} {storage : UInt64}

/-- The caches of a table are still there, and of the same classes. -/
def StaysIn (view view' : TableView) : Prop :=
  ∀ ref, view.Has ref → view'.Has ref ∧ (view'.cache ref).objectSize = (view.cache ref).objectSize

theorem StaysIn.refl (view : TableView) : view.StaysIn view := fun _ has => ⟨has, rfl⟩

theorem StaysIn.trans (first : view.StaysIn view') (second : view'.StaysIn view'') :
    view.StaysIn view'' := by
  intro ref has
  obtain ⟨has', sizes⟩ := first ref has
  obtain ⟨has'', sizes'⟩ := second ref has'
  exact ⟨has'', sizes'.trans sizes⟩

theorem StaysIn.setCache (nodup : view.addresses.Nodup) (has : view.Has ref)
    (sizes : cache.objectSize = (view.cache ref).objectSize) :
    view.StaysIn (view.setCache ref cache) := fun _ has' =>
  ⟨(has_setCache nodup has).2 has', objectSize_setCache nodup has sizes⟩

theorem StaysIn.addCache (nodup : (view.addCache cls storage bootstrap).addresses.Nodup)
    (sizes : bootstrap.objectSize = view.bootstrap.objectSize) :
    view.StaysIn (view.addCache cls storage bootstrap) := by
  have fresh : storage ∉ view.addresses := (List.nodup_cons.1 nodup).1
  intro ref has
  refine ⟨has_addCache.2 (.inr has), ?_⟩
  cases ref with
  | bootstrap => exact sizes
  | stored address =>
    rw [cache_addCache_of_ne]
    rintro rfl
    exact fresh has

/-- Finding or creating a cache drops none. -/
theorem findOrCreate_stays (sound : view.Sound size) (fits : size.Fits bootstrapClass.size) :
    (view.findOrCreate size cls).Always fun answer =>
      answer.2.addresses.Nodup → view.StaysIn answer.2 := by
  rw [← sound.bootstrapSize] at fits
  have sizes : (view.bootstrap.alloc size).Always fun result =>
      result.2.objectSize = view.bootstrap.objectSize :=
    (CacheView.alloc_always fits (sound.caches _ List.mem_cons_self)).mono
      fun _ allocated => allocated.objectSize
  refine (@findOrCreate_always size view cls
    (fun _ cache => cache.objectSize = view.bootstrap.objectSize) sizes).mono ?_
  rintro answer (⟨ref, _, rfl⟩ | ⟨_, ⟨error, rfl⟩ | ⟨storage, bootstrap, _, rfl, sizes⟩⟩) nodup
  · exact .refl view
  · exact .refl view
  · exact .addCache nodup sizes

end TableView

/-! ## Serving -/

section Serving

variable {view : SharedView count} {shared shared' : SharedHeap (MeteredPool size) count}
  {ledger : Ledger count} {i : Fin count} {ref : CacheRef} {bytes object : UInt64}
  {cls : SizeClass}

/-- The cache that an object comes from: it was found for the class, or created, and then it
served the object. -/
def SharedHeap.ServedBy (shared : SharedHeap (MeteredPool size) count) (i : Fin count)
    (bytes object : UInt64) (ref : CacheRef) : Prop :=
  ∃ cls table cache between after, SizeClass.ofRequest? bytes = some cls ∧
    (shared.allocators.get i).table.provide size cls
      { shared.heap with journal := raisedEvents bytes ++ shared.heap.journal } =
        .ok (.ok ref, table) between ∧
    (table.cache between.store ref).alloc size between = .ok (.ok object, cache) after

/-- Every object that is served comes from a cache. -/
theorem SharedHeap.exists_servedBy
    (ends : SharedHeap.perform (.request (.alloc i bytes)) shared =
      .ok (.object (.ok object)) shared') : ∃ ref, shared.ServedBy i bytes object ref := by
  obtain ⟨answer, allocator, heap, served, same, rfl⟩ := SharedHeap.exists_of_alloc ends
  cases same
  cases opened : (shared.allocators.get i).initialized with
  | false =>
    rw [Allocator.alloc_closed opened] at served
    cases served
  | true =>
    cases request : SizeClass.ofRequest? bytes with
    | none =>
      rw [Allocator.alloc_tooLarge opened request] at served
      cases served
    | some cls =>
      rw [Allocator.alloc_eq_allocOf opened request] at served
      rcases Allocator.exists_of_allocOf served with
        ⟨_, _, _, _, other, _⟩ | ⟨ref, table, between, finds, ⟨_, _, other, _⟩ |
          ⟨object', table', serves, same, _⟩⟩
      · cases other
      · cases other
      · cases same
        obtain ⟨cache, after, handed, _⟩ := CacheTable.exists_of_allocFrom serves
        exact ⟨ref, cls, table, cache, between, after, request, finds, handed⟩

namespace SharedView.Describes

variable (fits : size.Fits maxObjectSize) (h : view.Describes shared)

include fits h

/-- What finding or creating a cache comes to. -/
theorem provide_ends (i : Fin count) (cls : SizeClass) (journal : List Event) :
    ∃ answer found pool table heap,
      ((view.allocators i).table.findOrCreate size cls).run view.pool = ((answer, found), pool) ∧
      (shared.allocators.get i).table.provide size cls { shared.heap with journal } =
        .ok (answer, table) heap ∧
      found.Sound size ∧ found.addresses.Nodup ∧ (view.allocators i).table.StaysIn found ∧
      ∀ ref, answer = .ok ref → found.Has ref ∧ (found.cache ref).objectSize = cls.size := by
  let noted : Heap (MeteredPool size) := { shared.heap with journal }
  have small : size.Fits bootstrapClass.size := fits.of_le (by decide) (by decide)
  have sound := (h.sound i).table
  have described : (view.allocators i).table.Describes size (shared.allocators.get i).table
    noted.store noted.memory := (h.allocators i).table
  have known : (MeteredPool.model fits.wide).Describes view.pool
    ((view.allocators i).table.pages + view.heldByOthers i) noted.source noted.memory :=
    SharedView.Houses.split_source (h.known fits) i
  have follows : Follows (MeteredPool.model fits.wide)
    ((shared.allocators.get i).table.provide size cls)
    ((view.allocators i).table.findOrCreate size cls) noted view.pool _ :=
    CacheTable.provide_follows sound described known small
  obtain ⟨_, heap, ends, table, rfl, served, _, has⟩ := follows.run
  have nodup := served.sound.nodup_addresses (.of_source served.source)
  have stays := (TableView.findOrCreate_stays sound small).run view.pool nodup
  exact ⟨_, _, _, table, heap, rfl, ends, served.sound, nodup, stays, has⟩

/-- The caches of a table stay when an object of a class is served, and the object comes from one
of that class. -/
theorem allocOf_stays (i : Fin count) (request : SizeClass.ofRequest? bytes = some cls) :
    (view.allocators i).table.StaysIn
        (((view.allocators i).allocOf size cls).run view.pool).1.2.table ∧
      ∀ object ref, shared.ServedBy i bytes object ref →
        (((view.allocators i).allocOf size cls).run view.pool).1.2.table.Has ref ∧
        ((((view.allocators i).allocOf size cls).run view.pool).1.2.table.cache ref).objectSize =
          cls.size := by
  obtain ⟨answer, found, pool, table, heap, run, ends, sound, nodup, stays, has⟩ :=
    h.provide_ends fits i cls (raisedEvents bytes ++ shared.heap.journal)
  rw [AllocatorView.allocOf, Plan.run_bind, TableView.alloc, Plan.run_bind, run]
  cases answer with
  | error error =>
    refine ⟨stays, ?_⟩
    rintro object ref ⟨_, _, _, _, _, request', finds, _⟩
    rw [request] at request'
    cases request'
    rw [ends] at finds
    cases finds
  | ok ref =>
    obtain ⟨present, sizes⟩ := has ref rfl
    obtain ⟨pos, le⟩ := SizeClass.size_of_request request
    have room : size.Fits (found.cache ref).objectSize := sizes ▸ fits.of_le pos le
    have kept := ((CacheView.alloc_always room
      (sound.caches _ (TableView.mem_caches_of_has nodup present))).run pool).objectSize
    dsimp only
    rw [TableView.allocFrom_run]
    refine ⟨stays.trans (.setCache nodup present kept), ?_⟩
    rintro object ref' ⟨_, _, _, _, _, request', finds, _⟩
    rw [request] at request'
    cases request'
    rw [ends] at finds
    cases finds
    exact ⟨(TableView.has_setCache nodup present).2 present,
      (TableView.objectSize_setCache nodup present kept).trans sizes⟩

theorem alloc_stays (i : Fin count) (bytes : UInt64) :
    (view.allocators i).table.StaysIn
        (((view.allocators i).alloc size bytes).run view.pool).1.2.table ∧
      ∀ object ref, (((view.allocators i).alloc size bytes).run view.pool).1.1 = .ok object →
        shared.ServedBy i bytes object ref →
        (((view.allocators i).alloc size bytes).run view.pool).1.2.table.Has ref ∧
        ((((view.allocators i).alloc size bytes).run view.pool).1.2.table.cache ref).objectSize =
          servedSize bytes := by
  rw [AllocatorView.alloc]
  cases opened : (view.allocators i).initialized with
  | false =>
    rw [if_neg Bool.false_ne_true]
    refine ⟨.refl _, fun object ref other => ?_⟩
    cases other
  | true =>
    rw [if_pos rfl]
    cases request : SizeClass.ofRequest? bytes with
    | none =>
      refine ⟨.refl _, fun object ref other => ?_⟩
      cases other
    | some cls =>
      obtain ⟨stays, comes⟩ := h.allocOf_stays fits i request
      rw [servedSize, request]
      exact ⟨stays, fun object ref _ served => comes object ref served⟩

end SharedView.Describes

end Serving

/-! ## Caches that stay through an action -/

section Staying

variable {view : SharedView count} {shared : SharedHeap (MeteredPool size) count}
  {ledger : Ledger count} {action : Action count} {i j : Fin count} {ref : CacheRef} {block : Block}

theorem TableView.StaysIn.update {allocators : Fin count → AllocatorView}
    {allocator : AllocatorView} (stays : (allocators j).table.StaysIn allocator.table)
    (i : Fin count) :
    (allocators i).table.StaysIn (Function.update allocators j allocator i).table := by
  by_cases same : i = j
  · subst same
    rw [Function.update_self]
    exact stays
  · rw [Function.update_of_ne same]
    exact .refl _

/-- A teardown leaves the other tables, and all of them if the allocator is closed. -/
theorem SharedView.teardown_stays (other : i = j → (view.allocators i).initialized = false) :
    (view.allocators i).table.StaysIn
      ((view.perform size (.request (.teardown j))).2.allocators i).table := by
  by_cases same : i = j
  · subst same
    rw [perform_teardown_closed (other rfl)]
    exact .refl _
  · rw [perform]
    dsimp only
    rw [Function.update_of_ne same]
    exact .refl _

namespace SharedView.Describes

variable (fits : size.Fits maxObjectSize) (h : view.Describes shared)
  (accounts : ledger.Accounts size view)

include h accounts

theorem free_stays {object : UInt64} (permitted : ledger.Permits (.request (.free j object)))
    (i : Fin count) : (view.allocators i).table.StaysIn
      ((view.perform size (.request (.free j object))).2.allocators i).table := by
  cases opened : (view.allocators j).initialized with
  | false =>
    rw [perform_free_closed opened]
    exact .refl _
  | true =>
    obtain ⟨block, rfl, mem⟩ := accounts.exists_user permitted opened
    obtain ⟨ref, cache, pool, has, freed, _, performed⟩ := h.exists_freed opened mem
    have nodup := (h.sound j).table.nodup_addresses (h.regular j)
    rw [performed]
    exact .update (.setCache nodup has freed.objectSize) i

/-- What a teardown leaves the users is in the bootstrap cache, and that one stays. -/
theorem teardown_keeps (opened : (view.allocators i).initialized = true)
    (kept : block ∈ (ledger.note (.request (.teardown i)) .done).users i)
    (has : (view.allocators i).table.Has ref)
    (sizes : (view.cache i ref).objectSize = block.size) :
    ((view.perform size (.request (.teardown i))).2.allocators i).table.Has ref ∧
      ((view.perform size (.request (.teardown i))).2.cache i ref).objectSize = block.size := by
  have sound := (h.sound i).table
  -- what stays is of the bootstrap class
  rw [Ledger.note, accounts.opened, opened, if_pos rfl, Ledger.users, Holding.usersIn_leave] at kept
  have small := (Multiset.mem_filter.1 kept).2
  obtain rfl : ref = .bootstrap := sound.ref_inj (sound.nodup_addresses (h.regular i)) has trivial
    (sizes.trans (small.trans sound.bootstrapSize.symm))
  obtain ⟨bootstrap, dropped, freed⟩ :=
    (TableView.reset_always sound (h.regular i)).run view.pool
  have table : (((view.allocators i).teardown size).run view.pool).1.table = { bootstrap } := by
    rw [AllocatorView.teardown, if_pos opened, Plan.run_bind]
    exact dropped
  refine ⟨trivial, ?_⟩
  rw [SharedView.cache, perform]
  dsimp only
  rw [Function.update_self, table]
  exact freed.objectSize.trans sizes

include fits

/-- The caches of an allocator stay, unless it is torn down. -/
theorem perform_stays (permitted : ledger.Permits action)
    (other : action = .request (.teardown i) → (view.allocators i).initialized = false) :
    (view.allocators i).table.StaysIn ((view.perform size action).2.allocators i).table := by
  cases action with
  | request request =>
    cases request with
    | init j =>
      refine .update ?_ i
      rw [AllocatorView.init]
      split
      · exact .refl _
      · exact fun ref has => ⟨by cases ref <;> exact has, by cases ref <;> rfl⟩
    | teardown j => exact SharedView.teardown_stays fun same => other (same ▸ rfl)
    | alloc j bytes => exact .update (h.alloc_stays fits j bytes).1 i
    | free j object => exact h.free_stays accounts permitted i
    | write address values => exact .refl _
  | addMemory start length => exact .refl _
  | refuse refusal => exact .refl _

/-- The cache of an object stays as long as the object. -/
theorem perform_keeps (permitted : ledger.Permits action)
    (kept : block ∈ (ledger.note action (view.perform size action).1).users i)
    (has : (view.allocators i).table.Has ref)
    (sizes : (view.cache i ref).objectSize = block.size) :
    ((view.perform size action).2.allocators i).table.Has ref ∧
      ((view.perform size action).2.cache i ref).objectSize = block.size := by
  by_cases other : action = .request (.teardown i) → (view.allocators i).initialized = false
  · obtain ⟨has', sizes'⟩ := h.perform_stays fits accounts permitted other ref has
    exact ⟨has', sizes'.trans sizes⟩
  · rw [Classical.not_imp, Bool.not_eq_false] at other
    obtain ⟨rfl, opened⟩ := other
    exact h.teardown_keeps accounts opened kept has sizes

end SharedView.Describes

end Staying

/-! ## Objects and where they came from -/

/-- The cache is one of a table. -/
def SharedHeap.Stores (shared : SharedHeap (MeteredPool size) count) (i : Fin count)
    (ref : CacheRef) : Prop :=
  ∃ storages, (shared.allocators.get i).table.storages shared.heap.store = .ok storages ∧
    ref ∈ CacheRef.bootstrap :: storages.map CacheRef.stored

/-- What is remembered of an object that was served. -/
structure Origin (size : PageSize) (count : Nat) where
  /-- What was asked for. -/
  bytes : UInt64
  /-- The cache that the object comes from. -/
  cache : CacheRef
  /-- The heaps since then, the latest first. -/
  since : List (SharedHeap (MeteredPool size) count)

/-- What is remembered of the objects of each allocator, by their addresses. -/
abbrev Origins (size : PageSize) (count : Nat) := Fin count → UInt64 → Option (Origin size count)

/-- One more heap since the objects were served. -/
def Origin.later (origin : Origin size count) (shared : SharedHeap (MeteredPool size) count) :
    Origin size count :=
  { origin with since := shared :: origin.since }

namespace Origins

/-- What is remembered in the heap that an action led to. -/
def later (origins : Origins size count) (shared : SharedHeap (MeteredPool size) count) :
    Origins size count :=
  fun i object => (origins i object).map fun origin => origin.later shared

/-- Remember one more object, and forget the one that was there before. -/
def serve (origins : Origins size count) (i : Fin count) (object : UInt64)
    (origin : Origin size count) : Origins size count :=
  Function.update origins i (Function.update (origins i) object (some origin))

variable {origins : Origins size count} {origin : Origin size count} {i j : Fin count}
  {object address : UInt64}

theorem serve_self : origins.serve i object origin i object = some origin := by
  rw [serve, Function.update_self, Function.update_self]

theorem serve_of_ne (differ : ¬ (j = i ∧ address = object)) :
    origins.serve i object origin j address = origins j address := by
  rw [serve]
  by_cases same : j = i
  · subst same
    rw [Function.update_self, Function.update_of_ne fun same => differ ⟨rfl, same⟩]
  · rw [Function.update_of_ne same]

theorem later_of_some (known : origins i object = some origin)
    (shared : SharedHeap (MeteredPool size) count) :
    origins.later shared i object = some (origin.later shared) := by
  rw [later, known, Option.map_some]

end Origins

/-- What permitted actions lead to, with what callers know of it and where the objects came
from. -/
inductive SharedHeap.Traced :
    SharedHeap (MeteredPool size) count → Ledger count → Origins size count → Prop
  | start (memory : Memory) : Traced (.fresh size count memory) {} fun _ _ => none
  | serve {shared shared' : SharedHeap (MeteredPool size) count} {ledger : Ledger count}
      {origins : Origins size count} {i : Fin count} {bytes object : UInt64} {ref : CacheRef} :
    Traced shared ledger origins →
      SharedHeap.perform (.request (.alloc i bytes)) shared =
        .ok (.object (.ok object)) shared' →
      shared.ServedBy i bytes object ref →
      Traced shared' (ledger.note (.request (.alloc i bytes)) (.object (.ok object)))
        ((origins.later shared').serve i object ⟨bytes, ref, [shared']⟩)
  | step {shared shared' : SharedHeap (MeteredPool size) count} {ledger : Ledger count}
      {origins : Origins size count} {action : Action count} {reply : Reply} :
    Traced shared ledger origins → ledger.Permits action →
      SharedHeap.perform action shared = .ok reply shared' →
      (∀ object, reply ≠ .object (.ok object)) →
      Traced shared' (ledger.note action reply) (origins.later shared')

section Tracing

variable {view view' : SharedView count} {shared shared' : SharedHeap (MeteredPool size) count}
  {ledger : Ledger count} {origins : Origins size count} {origin : Origin size count}
  {action : Action count} {i : Fin count} {ref : CacheRef} {block : Block}

/-- Only requests for objects are answered with one. -/
theorem SharedView.exists_alloc_of_object {object : UInt64}
    (replied : (view.perform size action).1 = .object (.ok object)) :
    ∃ i bytes, action = .request (.alloc i bytes) := by
  cases action with
  | request request =>
    cases request with
    | alloc i bytes => exact ⟨i, bytes, rfl⟩
    | _ => cases replied
  | _ => cases replied

/-- Every reachable heap is traced. -/
theorem SharedHeap.Reachable.exists_traced (fits : size.Fits maxObjectSize)
    (reachable : Reachable shared ledger) : ∃ origins, shared.Traced ledger origins := by
  induction reachable with
  | start memory => exact ⟨_, .start memory⟩
  | @step _ _ _ _ reply reachable permitted ends ih =>
    obtain ⟨origins, traced⟩ := ih
    by_cases answered : ∃ object, reply = .object (.ok object)
    · obtain ⟨object, rfl⟩ := answered
      obtain ⟨view, h, accounts⟩ := reachable.exists_view fits
      obtain ⟨_, ends', _⟩ := h.perform_refines fits accounts permitted
      obtain ⟨replied, -⟩ := EStateM.Result.ok.inj (ends.symm.trans ends')
      obtain ⟨i, bytes, rfl⟩ := SharedView.exists_alloc_of_object replied.symm
      obtain ⟨ref, served⟩ := SharedHeap.exists_servedBy ends
      exact ⟨_, .serve traced ends served⟩
    · exact ⟨_, .step traced permitted ends (not_exists.1 answered)⟩

/-- The origin of a block that users have. -/
structure Origin.Explains (origin : Origin size count) (view : SharedView count) (i : Fin count)
    (block : Block) : Prop where
  served : servedSize origin.bytes = block.size
  has : (view.allocators i).table.Has origin.cache
  sizes : (view.cache i origin.cache).objectSize = block.size
  since : ∀ earlier ∈ origin.since, earlier.Stores i origin.cache

theorem SharedView.Describes.stores (h : view.Describes shared)
    (has : (view.allocators i).table.Has ref) : shared.Stores i ref :=
  ⟨_, (h.allocators i).table.storages_eq, TableView.has_iff_mem_order.1 has⟩

/-- An origin explains a block as long as the block is there. -/
theorem Origin.Explains.later (fits : size.Fits maxObjectSize) (h : view.Describes shared)
    (accounts : ledger.Accounts size view) (permitted : ledger.Permits action)
    (described : (view.perform size action).2.Describes shared')
    (kept : block ∈ (ledger.note action (view.perform size action).1).users i)
    (explains : origin.Explains view i block) :
    (origin.later shared').Explains (view.perform size action).2 i block := by
  obtain ⟨has, sizes⟩ := h.perform_keeps fits accounts permitted kept explains.has explains.sizes
  refine ⟨explains.served, has, sizes, fun earlier mem => ?_⟩
  rcases List.mem_cons.1 mem with rfl | before
  · exact described.stores has
  · exact explains.since earlier before

/-- Every block of a user has an origin that explains it. -/
def Origins.Explain (origins : Origins size count) (view : SharedView count)
    (ledger : Ledger count) : Prop :=
  ∀ i, ∀ block ∈ ledger.users i, ∃ origin, origins i block.address = some origin ∧
    origin.Explains view i block

theorem Origins.Explain.later (fits : size.Fits maxObjectSize) (h : view.Describes shared)
    (accounts : ledger.Accounts size view) (permitted : ledger.Permits action)
    (described : (view.perform size action).2.Describes shared')
    (explain : origins.Explain view ledger)
    (kept : block ∈ (ledger.note action (view.perform size action).1).users i)
    (held : block ∈ ledger.users i) :
    ∃ origin, origins.later shared' i block.address = some origin ∧
      origin.Explains (view.perform size action).2 i block := by
  obtain ⟨origin, known, explains⟩ := explain i block held
  exact ⟨_, Origins.later_of_some known shared',
    explains.later fits h accounts permitted described kept⟩

/-- A new object is explained by the cache that it comes from. -/
theorem Origin.Explains.serve {bytes object : UInt64} (fits : size.Fits maxObjectSize)
    (h : view.Describes shared)
    (described : (view.perform size (.request (.alloc i bytes))).2.Describes shared')
    (replied : (view.perform size (.request (.alloc i bytes))).1 = .object (.ok object))
    (served : shared.ServedBy i bytes object ref) :
    (Origin.mk bytes ref [shared']).Explains (view.perform size (.request (.alloc i bytes))).2 i
      ⟨object, servedSize bytes⟩ := by
  have allocator : (view.perform size (.request (.alloc i bytes))).2.allocators i =
      (((view.allocators i).alloc size bytes).run view.pool).1.2 := Function.update_self ..
  obtain ⟨has, sizes⟩ := (h.alloc_stays fits i bytes).2 object ref (Reply.object.inj replied) served
  rw [← allocator] at has sizes
  refine ⟨rfl, has, sizes, fun earlier mem => ?_⟩
  rw [List.mem_singleton.1 mem]
  exact described.stores has

/-- The object that was served is explained, and the others still are. -/
theorem Origins.Explain.serve {bytes object : UInt64} (fits : size.Fits maxObjectSize)
    (h : view.Describes shared) (accounts : ledger.Accounts size view)
    (explain : origins.Explain view ledger)
    (described : (view.perform size (.request (.alloc i bytes))).2.Describes shared')
    (accounts' : (ledger.note (.request (.alloc i bytes)) (.object (.ok object))).Accounts size
      (view.perform size (.request (.alloc i bytes))).2)
    (replied : (view.perform size (.request (.alloc i bytes))).1 = .object (.ok object))
    (served : shared.ServedBy i bytes object ref) :
    ((origins.later shared').serve i object ⟨bytes, ref, [shared']⟩).Explain
      (view.perform size (.request (.alloc i bytes))).2
      (ledger.note (.request (.alloc i bytes)) (.object (.ok object))) := by
  intro j block kept
  by_cases same : j = i ∧ block.address = object
  · obtain ⟨rfl, rfl⟩ := same
    -- two blocks of an allocator differ in their addresses
    have new : ⟨block.address, servedSize bytes⟩ ∈ (ledger.note (.request (.alloc j bytes))
        (.object (.ok block.address))).users j :=
      Ledger.mem_users_iff.2 ⟨_, List.mem_cons_self, ⟨rfl, rfl⟩, rfl⟩
    have nodup := (described.sound j).table.nodup_addresses_users (described.regular j)
    rw [← accounts'.users j] at nodup
    have own := Multiset.inj_on_of_nodup_map nodup _ kept _ new rfl
    rw [own]
    exact ⟨_, Origins.serve_self, .serve fits h described replied served⟩
  · have held : block ∈ ledger.users j := (Ledger.mem_users_of_note kept).resolve_right ?_
    · rw [Origins.serve_of_ne same]
      rw [← replied] at kept
      exact explain.later fits h accounts trivial described kept held
    · rintro ⟨_, asked, answered, _⟩
      cases asked
      cases answered
      exact same ⟨rfl, rfl⟩

/-- A traced heap is as a view has it, and the blocks of its users are explained. -/
theorem SharedHeap.Traced.exists_view (fits : size.Fits maxObjectSize)
    (traced : shared.Traced ledger origins) : ∃ view : SharedView count,
    view.Describes shared ∧ ledger.Accounts size view ∧ origins.Explain view ledger := by
  induction traced with
  | start memory =>
    exact ⟨{}, .fresh size count memory, .start size count,
      fun _ _ mem => absurd mem (Multiset.notMem_zero _)⟩
  | @serve _ _ before _ i bytes _ _ _ ends served ih =>
    obtain ⟨view, h, accounts, explain⟩ := ih
    have permitted : before.Permits (.request (.alloc i bytes)) := trivial
    obtain ⟨_, ends', described, accounts'⟩ := h.perform_refines fits accounts permitted
    obtain ⟨replied, rfl⟩ := EStateM.Result.ok.inj (ends.symm.trans ends')
    rw [← replied] at accounts'
    exact ⟨_, described, accounts',
      explain.serve fits h accounts described accounts' replied.symm served⟩
  | step _ permitted ends other ih =>
    obtain ⟨view, h, accounts, explain⟩ := ih
    obtain ⟨_, ends', described, accounts'⟩ := h.perform_refines fits accounts permitted
    obtain ⟨rfl, rfl⟩ := EStateM.Result.ok.inj (ends.symm.trans ends')
    refine ⟨_, described, accounts', fun i block kept => ?_⟩
    have held := (Ledger.mem_users_of_note kept).resolve_right fun ⟨_, _, answered, _⟩ =>
      other _ answered
    exact explain.later fits h accounts permitted described kept held

/-- From the address of an object to its class, its slot and the cache that it comes from.  A closed
allocator finds no cache. -/
structure SharedHeap.LeadsBack (shared : SharedHeap (MeteredPool size) count) (i : Fin count)
    (object : UInt64) (opened : Bool) (origin : Origin size count) (cls : SizeClass) : Prop where
  request : SizeClass.ofRequest? origin.bytes = some cls
  slab : Slab.containing object size.bytes = .ok ⟨size.pageOf object⟩
  noted : (Slab.mk (size.pageOf object)).objectSize shared.heap.memory = cls.size
  rounded : SizeClass.ofRounded cls.size = .ok cls
  found : (shared.allocators.get i).table.find shared.heap.store cls =
    .ok (if opened then some origin.cache else none)
  since : ∀ earlier ∈ origin.since, earlier.Stores i origin.cache
  slot : ∃ slots slot, cls.capacity size.bytes = .ok slots ∧ slot < slots ∧
    (Slab.mk (size.pageOf object)).slotOf shared.heap.memory object = .ok slot ∧
    (Slab.mk (size.pageOf object)).addressOf shared.heap.memory slot = .ok object

/-- The class of a user's object finds the cache of the object. -/
theorem SharedView.Describes.find_of_users (h : view.Describes shared) {cls : SizeClass}
    (mem : block ∈ (view.allocators i).table.users size) (sizes : cls.size = block.size)
    (has : (view.allocators i).table.Has ref)
    (own : (view.cache i ref).objectSize = block.size) :
    (view.allocators i).table.find cls =
      if (view.allocators i).initialized then some ref else none := by
  have sound := (h.sound i).table
  have nodup := sound.nodup_addresses (h.regular i)
  have registered := (h.sound i).registered
  cases opened : (view.allocators i).initialized with
  | false =>
    rw [opened] at registered
    have alone : (view.allocators i).table.stored = [] := by
      by_contra some
      exact Bool.false_ne_true (registered.symm.trans (sound.registered some))
    obtain rfl : cls = bootstrapClass :=
      SizeClass.eq_of_size (sizes.trans (sound.size_of_alone alone mem))
    rw [TableView.find, if_pos rfl, registered]
    rfl
  | true =>
    obtain ⟨ref', found, has', same⟩ := sound.find_of_mem (h.regular i) (registered.trans opened)
      (TableView.mem_caches_of_has nodup has) (sizes.trans own.symm)
    rw [found, sound.ref_inj nodup has' has (congrArg CacheView.objectSize same), if_pos rfl]

/-- An explained block leads back to its cache. -/
theorem Origin.Explains.leadsBack (h : view.Describes shared)
    (mem : block ∈ (view.allocators i).table.users size)
    (explains : origin.Explains view i block) : ∃ cls, block.size = cls.size ∧
      shared.LeadsBack i block.address (view.allocators i).initialized origin cls := by
  have sound := (h.sound i).table
  have held : view.cache i origin.cache ∈ (view.allocators i).table.caches :=
    TableView.mem_caches_of_has (sound.nodup_addresses (h.regular i)) explains.has
  have own : block.address ∈ (view.cache i origin.cache).objects size := by
    refine sound.mem_objects_of_users (h.regular i) held ?_
    rw [explains.sizes]
    exact mem
  have regular := sound.regular_of_mem (h.regular i) held (CacheView.slabs_ne_nil_of_object own)
  have fits := regular.fits
  rw [explains.sizes] at fits
  obtain ⟨cls, request, served⟩ := exists_class_of_servedSize (explains.served ▸ fits.size_pos)
  have sizes : cls.size = block.size := served.trans explains.served
  have described : (view.cache i origin.cache).Describes size _ shared.heap.memory :=
    (h.allocators i).table.cacheOf sound (h.regular i) explains.has
  obtain ⟨slab, listed, slot, inRange, _, address⟩ := regular.mem_objects.1 own
  have inSlab := described.slabs slab listed
  have aligned := regular.aligned _ (CacheView.mem_pages listed)
  rw [explains.sizes, ← sizes] at inSlab inRange address
  rw [← sizes] at fits
  have page : size.pageOf block.address = slab.base := by
    rw [← address]
    exact fits.pageOf_slotAddress aligned inRange
  refine ⟨cls, sizes.symm, request, Slab.containing_eq size _, ?_, dif_pos cls.rounded, ?_,
    explains.since, _, slot, fits.capacity_eq, ?_, ?_, ?_⟩
  · rw [page]
    exact inSlab.sizeNoted
  · rw [(h.allocators i).table.find_eq,
      h.find_of_users mem sizes explains.has explains.sizes]
  · rw [UInt64.lt_iff_toNat_lt, fits.toNat_slots]
    exact inRange
  · rw [page, ← address]
    exact inSlab.slotOf_eq fits inRange
  · rw [page, ← address]
    exact inSlab.addressOf_eq fits aligned inRange

/-- **Objects lead back to the cache that served them.**  This is about the objects that may be
freed, of open allocators and of closed ones. -/
theorem SharedHeap.Reachable.leads_back (fits : size.Fits maxObjectSize)
    (reachable : Reachable shared ledger) :
    (∃ origins, shared.Traced ledger origins) ∧ ∀ origins, shared.Traced ledger origins →
      ∀ i, ∀ holding ∈ ledger.holdings, holding.LiveAt i →
        ∃ origin cls, origins i holding.block.address = some origin ∧
          holding.block.size = cls.size ∧
          shared.LeadsBack i holding.block.address (ledger.opened i) origin cls := by
  refine ⟨reachable.exists_traced fits, fun origins traced i holding mem live => ?_⟩
  obtain ⟨view, h, accounts, explain⟩ := traced.exists_view fits
  have user : holding.block ∈ ledger.users i := Ledger.mem_users_iff.2 ⟨holding, mem, live, rfl⟩
  obtain ⟨origin, known, explains⟩ := explain i holding.block user
  rw [accounts.users i] at user
  obtain ⟨cls, sizes, leads⟩ := explains.leadsBack h user
  rw [accounts.opened i]
  exact ⟨origin, cls, known, sizes, leads⟩

/-- An object of 100 bytes leads back to the cache of 112 bytes, after an object of another class
was served as well. -/
theorem SharedHeap.Reachable.leads_back_112 :
    ∃ (shared : SharedHeap (MeteredPool PageSize.default) 1) (ledger : Ledger 1)
      (origins : Origins PageSize.default 1) (origin : Origin PageSize.default 1) (cls : SizeClass),
      Reachable shared ledger ∧ shared.Traced ledger origins ∧
      origins 0 0x12050 = some origin ∧ cls.size = 112 ∧
      shared.LeadsBack 0 0x12050 true origin cls := by
  have fits : PageSize.default.Fits maxObjectSize := ⟨by decide, by decide +kernel⟩
  let actions : List (Action 1) := [.request (.init 0), .addMemory 0x10010 0x4000,
    .request (.alloc 0 100), .request (.alloc 0 200)]
  have legal : ({} : Ledger 1).Legal (.fresh PageSize.default 1 {}) actions :=
    ⟨trivial, fun _ _ _ => ⟨nofun, fun _ _ _ => ⟨trivial, fun _ _ _ => ⟨trivial, fun _ _ _ =>
      trivial⟩⟩⟩⟩
  let replies : List Reply :=
    [.done, .region (.ok ()), .object (.ok 0x12050), .object (.ok 0x13040)]
  let ledger := ({} : Ledger 1).noteAll actions replies
  obtain ⟨others, shared, -, reachable, tested⟩ := Reachable.run_of_test fits (.start {}) legal
    (fun others _ => others = replies) (by decide +kernel)
  obtain rfl := of_decide_eq_true tested
  obtain ⟨⟨origins, traced⟩, leads⟩ := reachable.leads_back fits
  have opened : ledger.opened 0 = true := by decide +kernel
  have held : (⟨0, ⟨0x12050, 112⟩, false⟩ : Holding 1) ∈ ledger.holdings := by decide +kernel
  obtain ⟨origin, cls, known, sizes, back⟩ := leads origins traced 0 _ held ⟨rfl, rfl⟩
  exact ⟨shared, ledger, origins, origin, cls, reachable, traced, known, sizes.symm, opened ▸ back⟩

end Tracing

end SlabHeap
