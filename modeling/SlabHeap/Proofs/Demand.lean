import SlabHeap.Proofs.AllocationStages
import SlabHeap.Proofs.Reachable
import SlabHeap.Proofs.Relied
import SlabHeap.Proofs.TableUpdates

/-!
# What an allocation asks the page source for

An allocation on an open allocator asks for two pages at most, and which ones can be read
off the state before it (`CacheTable.demand`).  A class without a cache needs an object of
the bootstrap cache to store one, and then a page of its own.  A cache asks only if no
slab of it has room.

`PageSource.takeFor` asks for such a list of pages, one after another, and stops at the
first refusal.  The main statement is that an allocation does exactly this, that it
succeeds if nothing is refused, and that it is refused as the source refused
(`SharedHeap.Reachable.alloc_demands`).
-/

namespace SlabHeap

/-! ## Requests in a row -/

/-- What a page source answered to requests on behalf of some classes. -/
structure Grants where
  /-- The pages granted, in order, each with the class it was asked for. -/
  granted : List (SizeClass × UInt64) := []
  /-- The class of the request that was refused, and why. -/
  refused : Option (SizeClass × AllocError) := none
  deriving DecidableEq, Repr

/-- The answers to more requests, of which the first one was granted. -/
def Grants.after (cls : SizeClass) (page : UInt64) (grants : Grants) : Grants :=
  { grants with granted := (cls, page) :: grants.granted }

/-- Ask for one page after another on behalf of some classes.  The first refusal ends
it. -/
def PageSource.takeFor {σ : Type} [PageSource σ] :
    List SizeClass → σ → Memory → Except Fault (Grants × σ × Memory)
  | [], source, memory => return ({}, source, memory)
  | cls :: rest, source, memory => do
    let (answer, source, memory) ← PageSource.takePage source memory
    match answer with
    | .error error => return ({ refused := some (cls, error) }, source, memory)
    | .ok page =>
      let (grants, source, memory) ← takeFor rest source memory
      return (grants.after cls page, source, memory)

/-- The request of a cache for a class, if no slab has room. -/
def Cache.asks (cache : Cache) (cls : SizeClass) : List SizeClass :=
  if cache.space.head = none then [cls] else []

/-- The requests of an allocation for a class. -/
def CacheTable.demand (table : CacheTable) (store : CacheStore) (cls : SizeClass) :
    Except Fault (List SizeClass) := do
  match ← table.find store cls with
  | some ref => return (table.cache store ref).asks cls
  | none => return table.bootstrap.asks bootstrapClass ++ [cls]

/-! ## Requests to an abstract pool -/

namespace PoolView

variable {pool pool' : PoolView} {asked : List SizeClass} {cls : SizeClass}
  {error : AllocError} {page : UInt64}

/-- Ask an abstract pool. -/
def takeFor (pool : PoolView) : List SizeClass → Grants × PoolView
  | [] => ({}, pool)
  | cls :: rest =>
    match pool.take with
    | (.error error, pool) => ({ refused := some (cls, error) }, pool)
    | (.ok page, pool) =>
      let answered := pool.takeFor rest
      (answered.1.after cls page, answered.2)

theorem takeFor_cons_error (taken : pool.take = (.error error, pool')) :
    pool.takeFor (cls :: rest) = ({ refused := some (cls, error) }, pool') := by
  rw [takeFor, taken]

theorem takeFor_cons_ok (taken : pool.take = (.ok page, pool')) :
    pool.takeFor (cls :: rest) =
      ((pool'.takeFor rest).1.after cls page, (pool'.takeFor rest).2) := by
  rw [takeFor, taken]

/-- After a refusal nothing more is asked. -/
theorem takeFor_append_refused (rest : List SizeClass) {refusal : SizeClass × AllocError}
    (refused : (pool.takeFor asked).1.refused = some refusal) :
    pool.takeFor (asked ++ rest) = pool.takeFor asked := by
  induction asked generalizing pool with
  | nil => cases refused
  | cons cls asked ih =>
    rw [List.cons_append]
    rcases taken : pool.take with ⟨error | page, pool'⟩
    · rw [takeFor_cons_error taken, takeFor_cons_error taken]
    · rw [takeFor_cons_ok taken] at refused
      rw [takeFor_cons_ok taken, takeFor_cons_ok taken, ih refused]

/-- Where everything was granted, more can be asked. -/
theorem takeFor_append (rest : List SizeClass)
    (granted : (pool.takeFor asked).1.refused = none) :
    pool.takeFor (asked ++ rest) =
      ({ granted := (pool.takeFor asked).1.granted ++
          ((pool.takeFor asked).2.takeFor rest).1.granted
         refused := ((pool.takeFor asked).2.takeFor rest).1.refused },
        ((pool.takeFor asked).2.takeFor rest).2) := by
  induction asked generalizing pool with
  | nil => rfl
  | cons cls asked ih =>
    rw [List.cons_append]
    rcases taken : pool.take with ⟨error | page, pool'⟩
    · rw [takeFor_cons_error taken] at granted
      cases granted
    · rw [takeFor_cons_ok taken] at granted
      rw [takeFor_cons_ok taken, takeFor_cons_ok taken, ih granted]
      rfl

/-- A metered pool is asked as its view says, and nothing is written. -/
theorem Describes.takeFor {size : PageSize} {held : Multiset UInt64} {metered : MeteredPool size}
    {memory : Memory} (h : pool.Describes held metered memory) (wide : 8 ≤ size.length)
    (asked : List SizeClass) : ∃ metered',
      PageSource.takeFor asked metered memory = .ok ((pool.takeFor asked).1, metered', memory) ∧
      (pool.takeFor asked).2.Describes
        (((pool.takeFor asked).1.granted.map Prod.snd : List UInt64) + held) metered' memory := by
  induction asked generalizing pool held metered with
  | nil => exact ⟨metered, rfl, (Multiset.zero_add held).symm ▸ h⟩
  | cons cls rest ih =>
    obtain ⟨metered₁, taken, described⟩ := h.take wide
    simp only [PageSource.takeFor, taken, bind, Except.bind]
    rcases answer : pool.take with ⟨error | page, pool'⟩
    · rw [answer] at described
      rw [takeFor_cons_error answer]
      exact ⟨metered₁, rfl, described⟩
    · rw [answer] at described
      dsimp only [granted] at described
      rw [Multiset.singleton_add] at described
      obtain ⟨metered', taken', described'⟩ := ih described
      rw [Multiset.add_cons] at described'
      rw [takeFor_cons_ok answer]
      refine ⟨metered', by simp only [taken', pure, Except.pure], ?_⟩
      simp only [Grants.after, List.map_cons, ← Multiset.cons_coe, Multiset.cons_add]
      exact described'

end PoolView

/-! ## The requests of a cache -/

namespace CacheView

variable {size : PageSize} {view : CacheView} {cache : Cache} {memory : Memory} {cls : SizeClass}

/-- The request of an abstract cache. -/
def asks (view : CacheView) (cls : SizeClass) : List SizeClass :=
  if view.room = [] then [cls] else []

theorem Describes.asks_eq (h : view.Describes size cache memory) (cls : SizeClass) :
    cache.asks cls = view.asks cls := by
  have head := h.space.1.head?_eq
  unfold Cache.asks CacheView.asks
  cases room : view.room with
  | nil =>
    rw [room] at head
    rw [head, if_pos rfl]
    rfl
  | cons slab rest =>
    rw [room] at head
    rw [head, if_neg (List.cons_ne_nil _ _)]
    rfl

/-- Serving asked a pool on behalf of a class.  The pages granted are pages of the cache. -/
structure Asks (view : CacheView) (cls : SizeClass) (pool : PoolView)
    (answer : Except AllocError UInt64) (view' : CacheView) (pool' : PoolView) : Prop where
  taken : (pool.takeFor (view.asks cls)).2 = pool'
  refused : ∀ error, answer = .error error ↔
    ∃ asker, (pool.takeFor (view.asks cls)).1.refused = some (asker, error)
  asker : ∀ refusal, (pool.takeFor (view.asks cls)).1.refused = some refusal → refusal.1 = cls
  owned : ∀ grant ∈ (pool.takeFor (view.asks cls)).1.granted, grant.1 = cls ∧ grant.2 ∈ view'.pages

theorem alloc_asks (fits : size.Fits view.objectSize) (cls : SizeClass)
    (pool : PoolView) :
    view.Asks cls pool ((view.alloc size).run pool).1.1 ((view.alloc size).run pool).1.2
      ((view.alloc size).run pool).2 := by
  unfold alloc
  cases room : view.room with
  | nil =>
    have one : view.asks cls = [cls] := if_pos room
    dsimp only [Plan.run]
    rcases taken : pool.take with ⟨error | page, pool'⟩
    · constructor <;> simp [one, PoolView.takeFor_cons_error taken, Plan.run]
    · obtain ⟨slot, free, front, fresh, _⟩ := openSlab_front fits room page
      have served : (view.openSlab size page).Served size _ _ := serve_served fits front fresh
      have pages : ((view.openSlab size page).serve size).2.pages = page ::ₘ view.pages :=
        served.pages
      constructor <;>
        simp [one, PoolView.takeFor_cons_ok taken, PoolView.takeFor, Grants.after, Plan.run, pages]
  | cons slab rest =>
    have none : view.asks cls = [] := if_neg fun empty => by simp [room] at empty
    constructor <;> simp [none, PoolView.takeFor, Plan.run]

end CacheView

/-! ## Stages -/

/-- Whether an event says that a cache has no page, or that none can be stored. -/
def Event.aboutRefusal : Event → Bool
  | .noPageForSlab .. | .bootstrapMissing => true
  | _ => false

/-- What is reported of a refused request. -/
def Grants.events (grants : Grants) : List Event :=
  grants.refused.toList.map fun refusal => .noPageForSlab refusal.1.size refusal.2

/-- Where there is an answer, nothing was refused. -/
theorem Grants.refused_eq_none {α : Type} {grants : Grants} {answer : Except AllocError α} {a : α}
    (refused : ∀ error, answer = .error error ↔ ∃ cls, grants.refused = some (cls, error))
    (ends : answer = .ok a) : grants.refused = none := by
  cases refusal : grants.refused with
  | none => rfl
  | some refusal' => cases ends.symm.trans ((refused refusal'.2).2 ⟨refusal'.1, refusal⟩)

theorem Grants.events_of_granted {grants : Grants} (granted : grants.refused = none) :
    grants.events = [] := by
  rw [events, granted]
  rfl

theorem Grants.events_of_refused {grants : Grants} {cls : SizeClass} {error : AllocError}
    (refused : grants.refused = some (cls, error)) :
    grants.events = [.noPageForSlab cls.size error] := by
  rw [events, refused]
  rfl

namespace TableView

/-- A cache of the class has the page. -/
def Owns (view : TableView) (cls : SizeClass) (page : UInt64) : Prop :=
  ∃ cache ∈ view.caches, cache.objectSize = cls.size ∧ page ∈ cache.pages

/-- The requests of the abstract table. -/
def demand (view : TableView) (cls : SizeClass) : List SizeClass :=
  match view.find cls with
  | some ref => (view.cache ref).asks cls
  | none => view.bootstrap.asks bootstrapClass ++ [cls]

/-- A stage asked for pages on behalf of some classes.  It is refused as the pool refused,
and reports that.  The pages granted are owned by caches of the classes. -/
structure Asks {size : PageSize} {α : Type} (asked : List SizeClass) (pool : PoolView)
    (view : TableView) (heap : Heap (MeteredPool size)) (answer : Except AllocError α)
    (pool' : PoolView) (view' : TableView) (heap' : Heap (MeteredPool size)) : Prop where
  taken : (pool.takeFor asked).2 = pool'
  refused : ∀ error, answer = .error error ↔
    ∃ cls, (pool.takeFor asked).1.refused = some (cls, error)
  owned : ∀ grant ∈ (pool.takeFor asked).1.granted, view'.Owns grant.1 grant.2
  kept : ∀ cls page, view.Owns cls page → view'.Owns cls page
  reports : ∃ events, heap'.journal = events ++ heap.journal ∧
    events.filter Event.aboutRefusal = (pool.takeFor asked).1.events

namespace Asks

variable {size : PageSize} {α β : Type} {asked asked' : List SizeClass}
  {pool pool₁ pool' : PoolView} {view view₁ view' : TableView}
  {heap heap₁ heap' : Heap (MeteredPool size)} {answer : Except AllocError α}
  {answer' : Except AllocError β} {a : α} {error : AllocError}

/-- A stage that ends with an answer was granted everything. -/
theorem granted_all (asks : Asks asked pool view heap (.ok a) pool' view' heap') :
    (pool.takeFor asked).1.refused = none :=
  Grants.refused_eq_none asks.refused rfl

/-- One stage after another. -/
theorem trans (first : Asks asked pool view heap (.ok a) pool₁ view₁ heap₁)
    (second : Asks asked' pool₁ view₁ heap₁ answer' pool' view' heap') :
    Asks (asked ++ asked') pool view heap answer' pool' view' heap' := by
  have all := PoolView.takeFor_append asked' first.granted_all
  rw [first.taken] at all
  refine ⟨?_, ?_, ?_, fun cls page owned => second.kept _ _ (first.kept _ _ owned), ?_⟩
  · rw [all, second.taken]
  · rw [all]
    exact second.refused
  · rw [all]
    intro grant mem
    rcases List.mem_append.1 mem with before | after
    · exact second.kept _ _ (first.owned grant before)
    · exact second.owned grant after
  · obtain ⟨events, journal, reported⟩ := first.reports
    obtain ⟨events', journal', reported'⟩ := second.reports
    refine ⟨events' ++ events, ?_, ?_⟩
    · rw [journal', journal, List.append_assoc]
    · rw [all, List.filter_append, reported, reported', Grants.events, Grants.events,
        Grants.events, first.granted_all]
      exact List.append_nil _

/-- A stage that is refused is the last one. -/
theorem refuse (first : Asks asked pool view heap (.error error : Except AllocError α) pool' view'
    heap') : Asks (asked ++ asked') pool view heap (.error error : Except AllocError β) pool' view'
      heap' := by
  obtain ⟨cls, refused⟩ := (first.refused error).1 rfl
  have same := PoolView.takeFor_append_refused asked' refused
  refine ⟨?_, fun other => ?_, ?_, first.kept, ?_⟩
  · rw [same, first.taken]
  · rw [same, ← first.refused other, Except.error.injEq, Except.error.injEq]
  · rw [same]
    exact first.owned
  · rw [same]
    exact first.reports

/-- Other events may be reported before and after. -/
theorem noted (before after : List Event)
    (asks : Asks asked pool view { heap with journal := before ++ heap.journal } answer pool' view'
      heap')
    (other : (before.filter Event.aboutRefusal) = [])
    (other' : (after.filter Event.aboutRefusal) = []) :
    Asks asked pool view heap answer pool' view'
      { heap' with journal := after ++ heap'.journal } := by
  obtain ⟨events, journal, reported⟩ := asks.reports
  refine ⟨asks.taken, asks.refused, asks.owned, asks.kept, after ++ events ++ before, ?_, ?_⟩
  · simp only [journal, List.append_assoc]
  · rw [List.filter_append, List.filter_append, other, other', List.append_nil, List.nil_append,
      reported]

end Asks

variable {size : PageSize} {heap : Heap (MeteredPool size)} {view : TableView} {table : CacheTable}
  {ref : CacheRef} {rest : List CacheView} {cache : CacheView} {cls : SizeClass}
  {others : Multiset UInt64} {pool : PoolView} {storage page : UInt64}

theorem Focus.owns (focus : view.Focus ref rest) (sizes : cache.objectSize = cls.size)
    (mem : page ∈ cache.pages) : (view.setCache ref cache).Owns cls page :=
  ⟨cache, (focus.after cache).mem_iff.2 List.mem_cons_self, sizes, mem⟩

/-- A cache that kept its class and its pages still owns them. -/
theorem Focus.owns_of_owns (focus : view.Focus ref rest)
    (sizes : cache.objectSize = (view.cache ref).objectSize)
    (more : (view.cache ref).pages ≤ cache.pages) (owned : view.Owns cls page) :
    (view.setCache ref cache).Owns cls page := by
  obtain ⟨other, mem, class_, held⟩ := owned
  cases List.mem_cons.1 (focus.before.mem_iff.1 mem) with
  | inl own =>
    subst own
    exact focus.owns (sizes.trans class_) (Multiset.mem_of_le more held)
  | inr other => exact ⟨_, (focus.after cache).mem_iff.2 (.tail _ other), class_, held⟩

variable (wide : 8 ≤ size.length) (sound : view.Sound size)
  (h : view.Describes size table heap.store heap.memory)
  (known : pool.Describes (view.pages + others) heap.source heap.memory)

include sound h known

/-- Serving from a cache asks for a page if no slab of it has room. -/
theorem allocFrom_asks (has : view.Has ref) (fits : size.Fits cls.size)
    (sizes : (view.cache ref).objectSize = cls.size) :
    ∃ (answer : Except AllocError UInt64) (table' : CacheTable) (heap' : Heap (MeteredPool size))
      (pool' : PoolView) (view' : TableView),
      table.allocFrom size ref heap = .ok (answer.map fun object => (object, table')) heap' ∧
      Carried (MeteredPool.model wide) others heap view heap' pool' view' table' ∧
      Asks ((view.cache ref).asks cls) pool view heap answer pool' view' heap' ∧
      ∀ error, answer = .error error → table' = table := by
  have known' : (MeteredPool.model wide).Describes pool _ _ _ := known
  have regular := Regular.of_source known'
  obtain ⟨rest, focus⟩ := exists_focus (sound.nodup_addresses regular) has
  have good := sound.caches _ focus.mem_caches
  have described := h.cacheOf sound regular has
  rw [← sizes] at fits
  obtain ⟨_, heap', ends, table', rfl, served, same⟩ :=
    (CacheTable.allocFrom_follows sound h known' has fits).run
  have asks := CacheView.alloc_asks fits cls pool
  have allocated := (CacheView.alloc_always fits good).run pool
  have run : (view.allocFrom size ref).run pool =
      (((((view.cache ref).alloc size).run pool).1.1,
        view.setCache ref (((view.cache ref).alloc size).run pool).1.2),
      (((view.cache ref).alloc size).run pool).2) := Plan.run_bind _ _ _
  rw [run] at ends served same
  refine ⟨_, table', heap', _, _, ends, served.toCarried,
    ⟨asks.taken, asks.refused, ?_, ?_, ?_⟩, same⟩
  · intro grant mem
    obtain ⟨own, page⟩ := asks.owned grant mem
    exact focus.owns ((allocated.objectSize.trans sizes).trans (congrArg _ own.symm)) page
  · exact fun cls page owned => focus.owns_of_owns allocated.objectSize allocated.pages owned
  · cases answer : (((view.cache ref).alloc size).run pool).1.1 with
    | error error =>
      rw [answer] at ends
      obtain ⟨_, _, _, _, rfl⟩ := CacheTable.turnsDown_of_allocFrom ends
      obtain ⟨asker, refusal⟩ := (asks.refused error).1 answer
      obtain rfl : asker = cls := asks.asker _ refusal
      refine ⟨[_], rfl, ?_⟩
      rw [Grants.events_of_refused refusal, described.objectSize, sizes]
      rfl
    | ok object =>
      rw [answer] at ends
      obtain ⟨_, _, handsOut, _, rfl⟩ := CacheTable.handsOut_of_allocFrom ends
      refine ⟨[], handsOut.journal, ?_⟩
      rw [Grants.events_of_granted (Grants.refused_eq_none asks.refused answer)]
      rfl

/-- Creating a cache asks for a page if no slab of the bootstrap cache has room. -/
theorem create_asks (fits : size.Fits bootstrapClass.size) (registered : view.registered = true)
    (absent : view.find cls = none) :
    ∃ (answer : Except AllocError CacheRef) (table' : CacheTable) (heap' : Heap (MeteredPool size))
      (pool' : PoolView) (view' : TableView),
      table.create size cls heap = .ok (answer, table') heap' ∧
      Carried (MeteredPool.model wide) others heap view heap' pool' view' table' ∧
      Asks (view.bootstrap.asks bootstrapClass) pool view heap answer pool' view' heap' ∧
      (∀ error, answer = .error error → table' = table) ∧
      ∀ ref, answer = .ok ref → view'.Has ref ∧ view'.cache ref = { objectSize := cls.size } := by
  have known' : (MeteredPool.model wide).Describes pool _ _ _ := known
  have own : view.bootstrap ∈ view.caches := List.mem_cons_self
  have good := sound.caches _ own
  have fits' := fits
  rw [← sound.bootstrapSize] at fits'
  obtain ⟨_, heap', ends, table', rfl, served, kept, _⟩ :=
    (CacheTable.create_follows sound h known' fits absent).run
  have asks := CacheView.alloc_asks fits' bootstrapClass pool
  have allocated := (CacheView.alloc_always fits' good).run pool
  have run : (view.create size cls).run pool = _ :=
    (congrArg (Plan.run · pool) (if_pos registered)).trans (Plan.run_bind _ _ _)
  have sizes {grant : SizeClass × UInt64} (same : grant.1 = bootstrapClass) :
      view.bootstrap.objectSize = grant.1.size :=
    sound.bootstrapSize.trans (congrArg SizeClass.size same.symm)
  cases answer : ((view.bootstrap.alloc size).run pool).1.1 with
  | error error =>
    rw [run] at ends served kept
    simp only [answer] at ends served kept
    obtain ⟨_, _, _, _, _, rfl⟩ :=
      CacheTable.turnsDown_of_create (h.registered.trans registered) ends
    obtain ⟨asker, refusal⟩ := (asks.refused error).1 answer
    obtain rfl : asker = bootstrapClass := asks.asker _ refusal
    refine ⟨.error error, table', _, _, view, ends, served.toCarried,
      ⟨asks.taken, fun other => ?_, fun grant mem => ?_, fun _ _ => id, [_], rfl, ?_⟩, kept, nofun⟩
    · rw [← asks.refused other, answer, Except.error.injEq, Except.error.injEq]
    · obtain ⟨same, page⟩ := asks.owned grant mem
      rw [allocated.refused error answer] at page
      exact ⟨view.bootstrap, own, sizes same, page⟩
    · rw [Grants.events_of_refused refusal, h.bootstrap.objectSize, sound.bootstrapSize]
      rfl
  | ok storage =>
    rw [run] at ends served
    simp only [answer] at ends served
    obtain ⟨_, _, creates⟩ := CacheTable.creates_of_create (h.registered.trans registered) ends
    refine ⟨.ok (.stored storage), table', heap', _, _, ends, served.toCarried,
      ⟨asks.taken, fun other => ?_, fun grant mem => ?_, fun other page owned => ?_, [_],
        creates.noted, ?_⟩, nofun, ?_⟩
    · rw [← asks.refused other, answer]
      simp only [reduceCtorEq]
    · obtain ⟨same, page⟩ := asks.owned grant mem
      exact ⟨_, List.mem_cons_self, allocated.objectSize.trans (sizes same), page⟩
    · obtain ⟨cache, mem, class_, held⟩ := owned
      cases mem with
      | head => exact ⟨_, List.mem_cons_self, allocated.objectSize.trans class_,
          Multiset.mem_of_le allocated.pages held⟩
      | tail _ stored => exact ⟨cache, .tail _ (.tail _ stored), class_, held⟩
    · rw [Grants.events_of_granted (Grants.refused_eq_none asks.refused answer)]
      rfl
    · rintro _ ⟨⟩
      exact ⟨List.mem_cons_self, cache_addCache_self⟩

end TableView

/-! ## Allocations -/

section

variable {size : PageSize} {heap : Heap (MeteredPool size)} {view : AllocatorView}
  {allocator : Allocator} {cls : SizeClass} {others : Multiset UInt64} {pool : PoolView}

theorem TableView.Describes.demand_eq {view : TableView} {table : CacheTable} {store : CacheStore}
    {memory : Memory} (h : view.Describes size table store memory) (sound : view.Sound size)
    (regular : view.Regular size) (cls : SizeClass) :
    table.demand store cls = .ok (view.demand cls) := by
  unfold CacheTable.demand TableView.demand
  rw [h.find_eq cls]
  cases found : view.find cls with
  | none =>
    rw [← h.bootstrap.asks_eq]
    rfl
  | some ref =>
    obtain ⟨has, _⟩ := TableView.find_some sound regular found
    dsimp only
    rw [← (h.cacheOf sound regular has).asks_eq]
    rfl

variable (sound : view.Sound size) (h : view.Describes size allocator heap.store heap.memory)
  (known : pool.Describes (view.table.pages + others) heap.source heap.memory)

include sound h known

/-- Serving an object of a class asks for what the table demands. -/
theorem Allocator.allocOf_asks (wide : 8 ≤ size.length) (opened : view.initialized = true)
    (fits : size.Fits bootstrapClass.size) (room : size.Fits cls.size) :
    ∃ (answer : Except AllocError UInt64) (allocator' : Allocator)
      (heap' : Heap (MeteredPool size)) (pool' : PoolView) (table' : TableView),
      allocator.allocOf size cls heap = .ok (answer, allocator') heap' ∧
      table'.Describes size allocator'.table heap'.store heap'.memory ∧
      pool'.Describes (table'.pages + others) heap'.source heap'.memory ∧
      TableView.Asks (view.table.demand cls) pool view.table heap answer pool' table' heap' := by
  have source : (MeteredPool.model wide).Describes pool _ _ _ := known
  have regular := TableView.Regular.of_source source
  unfold TableView.demand
  cases found : view.table.find cls with
  | some ref =>
    obtain ⟨has, sizes⟩ := TableView.find_some sound.table regular found
    have finds : allocator.table.provide size cls heap = _ :=
      CacheTable.provide_found ((h.table.find_eq cls).trans (congrArg _ found))
    obtain ⟨answer, table', heap', pool', view', ends, carried, asks, kept⟩ :=
      TableView.allocFrom_asks wide sound.table h.table known has room sizes
    exact ⟨answer, _, heap', pool', view', allocOf_found finds ends kept, carried.describes,
      carried.source, asks⟩
  | none =>
    have finds : allocator.table.provide size cls heap = _ :=
      CacheTable.provide_absent ((h.table.find_eq cls).trans (congrArg _ found))
    obtain ⟨created, table₁, heap₁, pool₁, view₁, ends, carried, asks, same, has⟩ :=
      TableView.create_asks wide sound.table h.table known fits
        (sound.registered.trans opened) found
    rw [ends] at finds
    cases created with
    | error error =>
      obtain rfl := same error rfl
      exact ⟨.error error, _, _, pool₁, view₁, allocOf_refused finds, carried.describes,
        carried.source, asks.refuse.noted [] [_] rfl rfl⟩
    | ok ref =>
      obtain ⟨present, empty⟩ := has ref rfl
      obtain ⟨answer, table', heap', pool', view', ends', carried', asks', kept⟩ :=
        TableView.allocFrom_asks wide carried.sound carried.describes carried.source present room
          (congrArg CacheView.objectSize empty)
      rw [empty] at asks'
      exact ⟨answer, _, heap', pool', view', allocOf_found finds ends' kept, carried'.describes,
        carried'.source, asks.trans asks'⟩

end

/-- The slab of a page is noted with the class of the cache that has it. -/
theorem TableView.Describes.noted_of_owns {size : PageSize} {view : TableView} {table : CacheTable}
    {store : CacheStore} {memory : Memory} {cls : SizeClass} {page : UInt64}
    (h : view.Describes size table store memory) (owned : view.Owns cls page) :
    (Slab.mk page).objectSize memory = cls.size := by
  obtain ⟨cacheView, mem, sizes, held⟩ := owned
  obtain ⟨cache, described⟩ := h.exists_cache mem
  obtain ⟨slab, listed, rfl⟩ := List.mem_map.1 (Multiset.mem_coe.1 held)
  exact (described.slabs slab listed).sizeNoted.trans sizes

variable {size : PageSize} {count : Nat} {shared : SharedHeap (MeteredPool size) count}
  {ledger : Ledger count}

/-- What an allocation asked for, and how it ended.  A closed allocator and one that was asked
for too much do not ask the page source.  Otherwise the requests are those of the table, the
allocation is refused exactly if one of them is, and for the same reason, and the slab in a page
that was granted is one of the class that it was asked for. -/
structure SharedHeap.Demands (shared : SharedHeap (MeteredPool size) count) (i : Fin count)
    (bytes : UInt64) (answer : Except AllocError UInt64)
    (shared' : SharedHeap (MeteredPool size) count) : Prop where
  closed : (shared.allocators.get i).initialized = false →
    answer = .error .noMemory ∧ shared'.heap.source = shared.heap.source
  tooLarge : (shared.allocators.get i).initialized = true → maxObjectSize < bytes →
    answer = .error .invalidParam ∧ shared'.heap.source = shared.heap.source
  asked : (shared.allocators.get i).initialized = true → bytes ≤ maxObjectSize →
    ∃ cls asked grants memory events, SizeClass.ofRequest? bytes = some cls ∧
      (shared.allocators.get i).table.demand shared.heap.store cls = .ok asked ∧
      PageSource.takeFor asked shared.heap.source shared.heap.memory =
        .ok (grants, shared'.heap.source, memory) ∧
      (∀ error, answer = .error error ↔ ∃ asker, grants.refused = some (asker, error)) ∧
      (∀ grant ∈ grants.granted,
        (Slab.mk grant.2).objectSize shared'.heap.memory = grant.1.size) ∧
      shared'.heap.journal = events ++ shared.heap.journal ∧
      events.filter Event.aboutRefusal = grants.events

/-- An open allocator asks for what the table demands for the class of a request. -/
theorem SharedView.Describes.demands_of_class {view : SharedView count} {i : Fin count}
    {bytes : UInt64} {cls : SizeClass} (h : view.Describes shared)
    (fits : size.Fits maxObjectSize) (opened : (shared.allocators.get i).initialized = true)
    (request : SizeClass.ofRequest? bytes = some cls) :
    ∃ answer shared',
      SharedHeap.perform (.request (.alloc i bytes)) shared = .ok (.object answer) shared' ∧
      shared.Demands i bytes answer shared' := by
  obtain ⟨pos, le⟩ := SizeClass.size_of_request request
  have small : ¬ maxObjectSize < bytes := fun large => by
    simp [SizeClass.ofRequest?_eq_none_iff.2 large] at request
  let heap₁ : Heap (MeteredPool size) :=
    { shared.heap with journal := raisedEvents bytes ++ shared.heap.journal }
  have described : (view.allocators i).Describes size (shared.allocators.get i) heap₁.store
    heap₁.memory := h.allocators i
  obtain ⟨answer, allocator, heap', pool', table', ends, described', known', asks⟩ :=
    Allocator.allocOf_asks (h.sound i) described (h.source i) fits.wide
      ((h.allocators i).initialized.symm.trans opened)
      (fits.of_le (by decide) (by decide)) (fits.of_le pos le)
  rw [← Allocator.alloc_eq_allocOf opened request] at ends
  -- that a request was raised to the smallest size is not about a refusal
  have asks := asks.noted _ [] (List.filter_eq_nil_iff.2 fun event mem => by
    simp [eq_raised_of_mem mem, Event.aboutRefusal]) rfl
  refine ⟨answer, _, SharedHeap.serve_alloc_ok ends, ?_, fun _ large => absurd large small,
    fun _ _ => ?_⟩
  · simp [opened]
  obtain ⟨events, journal, reported⟩ := asks.reports
  obtain ⟨metered, taken, known⟩ :=
    (h.source i).takeFor fits.wide ((view.allocators i).table.demand cls)
  rw [asks.taken] at known
  obtain rfl := known.metered_eq known' fits.wide
  exact ⟨cls, _, _, _, events, request,
    (h.allocators i).table.demand_eq (h.sound i).table (h.regular i) cls, taken, asks.refused,
    fun grant mem => described'.noted_of_owns (asks.owned grant mem), journal, reported⟩

/-- **An allocation asks for what it needs, and nothing else.**  It ends, and it is refused only
where it is closed, too large, or not given a page. -/
theorem SharedHeap.Reachable.alloc_demands (fits : size.Fits maxObjectSize)
    (reachable : Reachable shared ledger) (i : Fin count) (bytes : UInt64) :
    ∃ answer shared',
      SharedHeap.perform (.request (.alloc i bytes)) shared = .ok (.object answer) shared' ∧
      shared.Demands i bytes answer shared' := by
  obtain ⟨view, h, _⟩ := reachable.exists_view fits
  cases opened : (shared.allocators.get i).initialized with
  | false =>
    refine ⟨_, _, SharedHeap.serve_alloc_ok (Allocator.alloc_closed opened), fun _ => ⟨rfl, rfl⟩,
      ?_, ?_⟩
    · simp [opened]
    · simp [opened]
  | true =>
    cases request : SizeClass.ofRequest? bytes with
    | none =>
      have large := SizeClass.ofRequest?_eq_none_iff.1 request
      refine ⟨_, _, SharedHeap.serve_alloc_ok (Allocator.alloc_tooLarge opened request), ?_,
        fun _ _ => ⟨rfl, rfl⟩, fun _ small => absurd large (UInt64.not_lt.2 small)⟩
      simp [opened]
    | some cls => exact h.demands_of_class fits opened request

/-- The bootstrap cache is given a page, and the new cache is refused one. -/
theorem SharedHeap.Reachable.alloc_demands_refused :
    ∃ (shared shared' : SharedHeap (MeteredPool PageSize.default) 1) (ledger : Ledger 1)
      (answer : Except AllocError UInt64), Reachable shared ledger ∧
      (shared.allocators.get 0).initialized = true ∧
      shared.heap.source.refusal = some ⟨1, .invalidParam⟩ ∧
      (shared.allocators.get 0).table.demand shared.heap.store ⟨112, rfl⟩ =
        .ok [bootstrapClass, ⟨112, rfl⟩] ∧
      SharedHeap.perform (.request (.alloc 0 100)) shared = .ok (.object answer) shared' ∧
      shared.Demands 0 100 answer shared' := by
  have fits : PageSize.default.Fits maxObjectSize := ⟨by decide, by decide +kernel⟩
  let actions : List (Action 1) := [.request (.init 0), .addMemory 0x10010 0x4000,
    .refuse (some ⟨1, .invalidParam⟩)]
  have legal : ({} : Ledger 1).Legal (.fresh PageSize.default 1 {}) actions :=
    ⟨trivial, fun _ _ _ => ⟨nofun, fun _ _ _ => ⟨trivial, fun _ _ _ => trivial⟩⟩⟩
  obtain ⟨replies, shared, -, reachable, tested⟩ := Reachable.run_of_test fits (.start {}) legal
    (fun _ shared => (shared.allocators.get 0).initialized = true ∧
      shared.heap.source.refusal = some ⟨1, .invalidParam⟩ ∧
      (shared.allocators.get 0).table.demand shared.heap.store ⟨112, rfl⟩ =
        .ok [bootstrapClass, ⟨112, rfl⟩]) (by decide +kernel)
  obtain ⟨opened, refusal, demand⟩ := of_decide_eq_true tested
  obtain ⟨answer, shared', ends, demands⟩ := reachable.alloc_demands fits 0 100
  exact ⟨shared, shared', _, answer, reachable, opened, refusal, demand, ends, demands⟩

end SlabHeap
