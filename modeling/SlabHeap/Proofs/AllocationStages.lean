import SlabHeap.Proofs.SharedRefinement

/-!
# The stages of an allocation

An allocation finds or creates the cache of its class, and then lets the cache serve an
object.  Each stage asks the page source once at most, and a refusal ends the
allocation there.

The lemmas of this module read an operation backwards.  From the answer with which it
ended they conclude which requests it made and what it wrote, on any page source and
whatever the state is.
-/

namespace SlabHeap

/-! ## Computations that end -/

/-- A computation with two steps ends as its second step, if the first one ends. -/
@[simp] theorem bind_ok_iff {ε σ α β : Type} {first : EStateM ε σ α} {rest : α → EStateM ε σ β}
    {s s' : σ} {b : β} : (first >>= rest) s = .ok b s' ↔
      ∃ a between, first s = .ok a between ∧ rest a between = .ok b s' :=
  ⟨exists_ok_of_bind, fun ⟨_, _, ends, after⟩ => (bind_ok ends).trans after⟩

@[simp] theorem pure_ok_iff {ε σ α : Type} {a b : α} {s s' : σ} :
    (pure a : EStateM ε σ α) s = .ok b s' ↔ b = a ∧ s' = s := by
  simp only [pure, EStateM.pure, EStateM.Result.ok.injEq, eq_comm]

@[simp] theorem map_ok_iff {ε σ α β : Type} {f : α → β} {first : EStateM ε σ α} {s s' : σ} {b : β} :
    (f <$> first) s = .ok b s' ↔ ∃ a, first s = .ok a s' ∧ f a = b := by
  rw [map_eq_pure_bind]
  simp only [bind_ok_iff, pure_ok_iff]
  constructor
  · rintro ⟨a, between, ends, rfl, rfl⟩
    exact ⟨a, ends, rfl⟩
  · rintro ⟨a, ends, rfl⟩
    exact ⟨a, s', ends, rfl, rfl⟩

@[simp] theorem throw_ok_iff {ε σ α : Type} {fault : ε} {a : α} {s s' : σ} :
    (throw fault : EStateM ε σ α) s = .ok a s' ↔ False := by
  constructor
  · intro ends
    cases ends
  · exact False.elim

@[simp] theorem get_ok_iff {ε σ : Type} {a s s' : σ} :
    (get : EStateM ε σ σ) s = .ok a s' ↔ a = s ∧ s' = s := by
  rw [get_ok, EStateM.Result.ok.injEq, eq_comm, eq_comm (a := s)]

@[simp] theorem modify_ok_iff {ε σ : Type} {f : σ → σ} {a : PUnit} {s s' : σ} :
    (modify f : EStateM ε σ PUnit) s = .ok a s' ↔ s' = f s := by
  constructor
  · intro ends
    cases ends
    rfl
  · rintro rfl
    rfl

namespace HeapM

variable {σ α : Type} {heap heap' : Heap σ} {a : α}

@[simp] theorem check_ok_iff {answer : Except Fault α} :
    check answer heap = .ok a heap' ↔ answer = .ok a ∧ heap' = heap := by
  cases answer with
  | ok b => simp only [check, pure_ok_iff, Except.ok.injEq, eq_comm]
  | error fault => simp only [check, throw_ok_iff, reduceCtorEq, false_and]

@[simp] theorem memory_ok_iff {memory : Memory} :
    HeapM.memory heap = .ok memory heap' ↔ memory = heap.memory ∧ heap' = heap := by
  rw [memory_ok, EStateM.Result.ok.injEq, eq_comm, eq_comm (a := heap)]

@[simp] theorem report_ok_iff {event : Event} {a : Unit} : report event heap = .ok a heap' ↔
    heap' = { heap with journal := event :: heap.journal } := by
  rw [report_ok, EStateM.Result.ok.injEq, eq_comm (b := heap')]
  simp only [true_and]

@[simp] theorem writeCache_ok_iff {address : UInt64} {stored : StoredCache} {a : Unit} :
    writeCache address stored heap = .ok a heap' ↔
      heap' = { heap with store := heap.store.write address stored } := by
  rw [writeCache_ok, EStateM.Result.ok.injEq, eq_comm (b := heap')]
  simp only [true_and]

@[simp] theorem inMemory_ok_iff {operation : Memory → Except Fault (α × Memory)} :
    inMemory operation heap = .ok a heap' ↔
      ∃ memory, operation heap.memory = .ok (a, memory) ∧ heap' = { heap with memory } := by
  rw [inMemory_eq]
  cases operation heap.memory with
  | error fault => simp only [reduceCtorEq, false_and, exists_false]
  | ok result =>
    obtain ⟨b, memory⟩ := result
    simp only [EStateM.Result.ok.injEq, Except.ok.injEq, Prod.mk.injEq]
    constructor
    · rintro ⟨rfl, rfl⟩
      exact ⟨memory, ⟨rfl, rfl⟩, rfl⟩
    · rintro ⟨_, ⟨rfl, rfl⟩, rfl⟩
      exact ⟨rfl, rfl⟩

@[simp] theorem takePage_ok_iff [PageSource σ] {answer : Except AllocError UInt64} :
    takePage heap = .ok answer heap' ↔ ∃ source memory,
      PageSource.takePage heap.source heap.memory = .ok (answer, source, memory) ∧
        heap' = { heap with source, memory } := by
  rw [takePage_eq]
  cases PageSource.takePage heap.source heap.memory with
  | error fault => simp only [reduceCtorEq, false_and, exists_false]
  | ok result =>
    obtain ⟨answer', source, memory⟩ := result
    simp only [EStateM.Result.ok.injEq, Except.ok.injEq, Prod.mk.injEq]
    constructor
    · rintro ⟨rfl, rfl⟩
      exact ⟨source, memory, ⟨rfl, rfl, rfl⟩, rfl⟩
    · rintro ⟨_, _, ⟨rfl, rfl, rfl⟩, rfl⟩
      exact ⟨rfl, rfl⟩

@[simp] theorem givePage_ok_iff [PageSource σ] {page : UInt64} {a : Unit} :
    givePage page heap = .ok a heap' ↔ ∃ source memory,
      PageSource.givePage page heap.source heap.memory = .ok (source, memory) ∧
        heap' = { heap with source, memory } := by
  rw [givePage_eq]
  cases PageSource.givePage page heap.source heap.memory with
  | error fault => simp only [reduceCtorEq, false_and, exists_false]
  | ok result =>
    obtain ⟨source, memory⟩ := result
    simp only [EStateM.Result.ok.injEq, Except.ok.injEq, Prod.mk.injEq, true_and]
    constructor
    · rintro rfl
      exact ⟨source, memory, ⟨rfl, rfl⟩, rfl⟩
    · rintro ⟨_, _, ⟨rfl, rfl⟩, rfl⟩
      rfl

end HeapM

/-! ## One cache -/

section

variable {size : PageSize} {σ : Type} [PageSource σ] {heap heap' : Heap σ} {cache cache' : Cache}
  {error : AllocError} {object : UInt64} {slab : Slab}

/-- A cache that turned an object down asked once, and passed on what it was told. -/
structure Cache.TurnsDown (cache : Cache) (error : AllocError) (heap heap' : Heap σ) : Prop where
  unlisted : cache.space.head = none
  taken : ∃ source memory,
    PageSource.takePage heap.source heap.memory = .ok (.error error, source, memory) ∧
    heap' = { heap with
      source, memory, journal := .noPageForSlab cache.objectSize error :: heap.journal }

/-- A cache that opened a slab asked only if no slab had room, and then for one page. -/
structure Cache.Opens (cache : Cache) (heap : Heap σ) (cache' : Cache) (heap' : Heap σ) :
    Prop where
  objectSize : cache'.objectSize = cache.objectSize
  store : heap'.store = heap.store
  journal : heap'.journal = heap.journal
  listed : ∀ slab, cache.space.head = some slab →
    cache'.pages = cache.pages ∧ heap'.source = heap.source
  opened : cache.space.head = none → cache'.pages.toNat = cache.pages.toNat + 1 ∧
    ∃ page memory,
      PageSource.takePage heap.source heap.memory = .ok (.ok page, heap'.source, memory)

/-- A cache that served an object counts it. -/
structure Cache.HandsOut (cache : Cache) (heap : Heap σ) (cache' : Cache) (heap' : Heap σ) : Prop
    extends cache.Opens heap cache' heap' where
  live : cache'.live.toNat = cache.live.toNat + 1

/-- A cache took an object from a slab, counted it, and took the slab off its list if that was
the last free slot. -/
structure Cache.TakesFrom (cache : Cache) (slab : Slab) (heap : Heap σ) (object : UInt64)
    (cache' : Cache) (heap' : Heap σ) : Prop where
  kept : cache' = { cache with space := cache'.space, live := cache'.live }
  live : cache'.live.toNat = cache.live.toNat + 1
  same : heap' = { heap with memory := heap'.memory }
  memory : ∃ taken, slab.take heap.memory = .ok (some object, taken) ∧
    (heap'.memory = taken ∨ ∃ first,
      cache.space.popFront taken = .ok ((first, cache'.space), heap'.memory))

theorem Cache.turnsDown_of_openSlab
    (ends : cache.openSlab size heap = .ok (.error error, cache') heap') :
    cache' = cache ∧ cache.TurnsDown error heap heap' := by
  unfold openSlab at ends
  cases first : cache.space.head with
  | some slab => simp [first] at ends
  | none =>
    simp only [first, bind_ok_iff, HeapM.takePage_ok_iff] at ends
    obtain ⟨answer, between, ⟨source, memory, taken, rfl⟩, ends⟩ := ends
    cases answer with
    | ok page => simp at ends
    | error refused =>
      simp only [bind_ok_iff, HeapM.report_ok_iff, pure_ok_iff, Prod.mk.injEq,
        Except.error.injEq] at ends
      obtain ⟨_, _, rfl, ⟨rfl, rfl⟩, rfl⟩ := ends
      exact ⟨rfl, first, source, memory, taken, rfl⟩

theorem Cache.opens_of_openSlab
    (ends : cache.openSlab size heap = .ok (.ok slab, cache') heap') :
    cache.Opens heap cache' heap' ∧ cache'.live = cache.live := by
  unfold openSlab at ends
  cases first : cache.space.head with
  | some slab =>
    simp only [first, pure_ok_iff, Except.ok.injEq, Prod.mk.injEq] at ends
    obtain ⟨⟨rfl, rfl⟩, rfl⟩ := ends
    exact ⟨⟨rfl, rfl, rfl, fun _ _ => ⟨rfl, rfl⟩, fun none => by simp [first] at none⟩, rfl⟩
  | none =>
    simp only [first, bind_ok_iff, HeapM.takePage_ok_iff] at ends
    obtain ⟨answer, between, ⟨source, memory, taken, rfl⟩, ends⟩ := ends
    cases answer with
    | error refused => simp at ends
    | ok page =>
      simp only [bind_ok_iff, HeapM.inMemory_ok_iff, HeapM.check_ok_iff, pure_ok_iff,
        Except.ok.injEq, Prod.mk.injEq] at ends
      obtain ⟨_, _, ⟨_, _, rfl⟩, _, _, ⟨_, _, rfl⟩, pages, _, ⟨counted, rfl⟩, ⟨_, rfl⟩, rfl⟩ := ends
      have more := checkedAdd_eq_ok_iff.1 counted
      refine ⟨⟨rfl, rfl, rfl, fun slab some => ?_, fun _ => ⟨more.symm, page, memory, taken⟩⟩, rfl⟩
      rw [first] at some
      cases some

/-- A cache opens a slab and takes the object from it, or is refused. -/
theorem Cache.exists_of_alloc {answer : Except AllocError UInt64}
    (ends : cache.alloc size heap = .ok (answer, cache') heap') :
    (∃ error, cache.openSlab size heap = .ok (.error error, cache') heap' ∧
      answer = .error error) ∨
    ∃ slab opened between object, cache.openSlab size heap = .ok (.ok slab, opened) between ∧
      answer = .ok object ∧ opened.TakesFrom slab between object cache' heap' := by
  unfold alloc at ends
  obtain ⟨⟨opening, listed⟩, between, opened, ends⟩ := bind_ok_iff.1 ends
  cases opening with
  | error refused =>
    simp only [pure_ok_iff, Prod.mk.injEq] at ends
    obtain ⟨⟨rfl, rfl⟩, rfl⟩ := ends
    exact .inl ⟨refused, opened, rfl⟩
  | ok opening =>
    obtain ⟨served?, _, served, ends⟩ := bind_ok_iff.1 ends
    cases served? with
    | none => simp at ends
    | some object =>
      simp only [bind_ok_iff, HeapM.check_ok_iff, HeapM.memory_ok_iff,
        HeapM.inMemory_ok_iff] at served ends
      obtain ⟨_, taken, rfl⟩ := served
      obtain ⟨live, _, ⟨counted, rfl⟩, memory, _, ⟨rfl, rfl⟩, ends⟩ := ends
      have more := (checkedAdd_eq_ok_iff.1 counted).symm
      refine .inr ⟨opening, listed, between, object, opened, ?_⟩
      split at ends
      · simp only [bind_ok_iff, HeapM.inMemory_ok_iff, pure_ok_iff, Prod.mk.injEq] at ends
        obtain ⟨⟨first, space⟩, _, ⟨memory', popped, rfl⟩, ⟨rfl, rfl⟩, rfl⟩ := ends
        exact ⟨rfl, rfl, more, rfl, memory, taken, .inr ⟨first, popped⟩⟩
      · simp only [pure_ok_iff, Prod.mk.injEq] at ends
        obtain ⟨⟨rfl, rfl⟩, rfl⟩ := ends
        exact ⟨rfl, rfl, more, rfl, memory, taken, .inl rfl⟩

/-- A cache that is refused is as it was. -/
theorem Cache.turnsDown_of_alloc
    (ends : cache.alloc size heap = .ok (.error error, cache') heap') :
    cache' = cache ∧ cache.TurnsDown error heap heap' := by
  rcases exists_of_alloc ends with ⟨_, refused, same⟩ | ⟨_, _, _, _, _, other, _⟩
  · cases same
    exact turnsDown_of_openSlab refused
  · cases other

theorem Cache.handsOut_of_alloc (ends : cache.alloc size heap = .ok (.ok object, cache') heap') :
    cache.HandsOut heap cache' heap' := by
  rcases exists_of_alloc ends with ⟨_, _, other⟩ | ⟨_, _, _, _, opened, _, takes⟩
  · cases other
  · obtain ⟨opens, live⟩ := opens_of_openSlab opened
    have more := takes.live
    rw [live] at more
    rw [takes.kept, takes.same]
    exact ⟨⟨opens.objectSize, opens.store, opens.journal, opens.listed, opens.opened⟩, more⟩

/-! ## Caches of a table -/

variable {table table' : CacheTable} {ref : CacheRef} {cls : SizeClass} {storage : UInt64}

theorem CacheTable.turnsDown_of_allocFrom
    (ends : table.allocFrom size ref heap = .ok (.error error) heap') :
    (table.cache heap.store ref).TurnsDown error heap heap' := by
  simp only [allocFrom, bind_ok_iff, get_ok_iff] at ends
  obtain ⟨_, _, ⟨rfl, rfl⟩, ⟨answer, cache⟩, _, served, ends⟩ := ends
  cases answer with
  | error refused =>
    simp only [pure_ok_iff, Except.error.injEq] at ends
    obtain ⟨rfl, rfl⟩ := ends
    exact (Cache.turnsDown_of_alloc served).2
  | ok served => simp at ends

/-- The cache served the object, and then it is replaced. -/
theorem CacheTable.exists_of_allocFrom
    (ends : table.allocFrom size ref heap = .ok (.ok (object, table')) heap') :
    ∃ cache between,
      (table.cache heap.store ref).alloc size heap = .ok (.ok object, cache) between ∧
      table' = table.withCache ref cache ∧
      heap' = { between with store := between.store.withCache ref cache } := by
  simp only [allocFrom, bind_ok_iff, get_ok_iff] at ends
  obtain ⟨_, _, ⟨rfl, rfl⟩, ⟨answer, cache⟩, between, served, ends⟩ := ends
  cases answer with
  | error refused => simp at ends
  | ok object =>
    simp only [table.setCache_ok, bind_ok_iff, EStateM.Result.ok.injEq, pure_ok_iff,
      Except.ok.injEq, Prod.mk.injEq] at ends
    obtain ⟨_, _, ⟨rfl, rfl⟩, ⟨rfl, rfl⟩, rfl⟩ := ends
    exact ⟨cache, between, served, rfl, rfl⟩

theorem CacheTable.handsOut_of_allocFrom
    (ends : table.allocFrom size ref heap = .ok (.ok (object, table')) heap') :
    ∃ cache between, (table.cache heap.store ref).HandsOut heap cache between ∧
      table' = table.withCache ref cache ∧
      heap' = { between with store := heap.store.withCache ref cache } := by
  obtain ⟨cache, between, served, listed, rfl⟩ := exists_of_allocFrom ends
  have serves := Cache.handsOut_of_alloc served
  rw [serves.store]
  exact ⟨cache, between, serves, listed, rfl⟩

/-- The bootstrap cache served an object, and the new cache is in it. -/
structure CacheTable.Creates (size : PageSize) (table : CacheTable) (cls : SizeClass)
    (heap : Heap σ) (storage : UInt64) (table' : CacheTable) (heap' : Heap σ) : Prop where
  served : table.bootstrap.alloc size heap = .ok (.ok storage, table'.bootstrap)
    { heap' with store := heap.store, journal := heap.journal }
  listed : table' = { table with
    bootstrap := table'.bootstrap,
    buckets := table.buckets.set cls.bucket (some storage) cls.bucket.isLt }
  stored : heap'.store = heap.store.write storage
    { cache := { objectSize := cls.size }, next := table.buckets.get cls.bucket }
  noted : heap'.journal = .cacheCreated cls.size storage cls.bucket.val :: heap.journal

/-- A table for which no cache could be created is as it was. -/
theorem CacheTable.turnsDown_of_create (registered : table.registered = true)
    (ends : table.create size cls heap = .ok (.error error, table') heap') :
    table' = table ∧ table.bootstrap.TurnsDown error heap heap' := by
  unfold create at ends
  rw [if_pos registered] at ends
  obtain ⟨⟨answer, bootstrap⟩, _, served, ends⟩ := bind_ok_iff.1 ends
  cases answer with
  | error refused =>
    simp only [pure_ok_iff, Prod.mk.injEq, Except.error.injEq] at ends
    obtain ⟨⟨rfl, rfl⟩, rfl⟩ := ends
    obtain ⟨rfl, turnsDown⟩ := Cache.turnsDown_of_alloc served
    exact ⟨rfl, turnsDown⟩
  | ok served =>
    obtain ⟨aligned, _, _, ends⟩ := bind_ok_iff.1 ends
    cases aligned <;> simp at ends

theorem CacheTable.creates_of_create (registered : table.registered = true)
    (ends : table.create size cls heap = .ok (.ok ref, table') heap') :
    ∃ storage, ref = .stored storage ∧ table.Creates size cls heap storage table' heap' := by
  unfold create at ends
  rw [if_pos registered] at ends
  obtain ⟨⟨answer, bootstrap⟩, between, served, ends⟩ := bind_ok_iff.1 ends
  cases answer with
  | error refused => simp at ends
  | ok storage =>
    have serves := Cache.handsOut_of_alloc served
    obtain ⟨aligned, _, checked, ends⟩ := bind_ok_iff.1 ends
    obtain ⟨_, rfl⟩ := HeapM.check_ok_iff.1 checked
    cases aligned with
    | false => simp at ends
    | true =>
      simp only [if_true, bind_ok_iff, HeapM.writeCache_ok_iff, HeapM.report_ok_iff, pure_ok_iff,
        Except.ok.injEq, Prod.mk.injEq] at ends
      obtain ⟨_, _, rfl, _, _, rfl, ⟨rfl, rfl⟩, rfl⟩ := ends
      refine ⟨storage, rfl, ?_, rfl, ?_, ?_⟩
      · rw [← serves.store, ← serves.journal]
        exact served
      · rw [← serves.store]
      · rw [← serves.journal]

theorem CacheTable.Creates.handsOut (creates : table.Creates size cls heap storage table' heap') :
    table.bootstrap.HandsOut heap table'.bootstrap
      { heap' with store := heap.store, journal := heap.journal } :=
  Cache.handsOut_of_alloc creates.served

/-- A class that has a cache finds it, and nothing happens. -/
theorem CacheTable.provide_found (found : table.find heap.store cls = .ok (some ref)) :
    table.provide size cls heap = .ok (.ok ref, table) heap := by
  unfold provide
  rw [bind_ok get_ok, bind_ok (HeapM.check_of_ok found)]
  rfl

/-- A class without a cache gets one. -/
theorem CacheTable.provide_absent (absent : table.find heap.store cls = .ok none) :
    table.provide size cls heap = table.create size cls heap := by
  unfold provide
  rw [bind_ok get_ok, bind_ok (HeapM.check_of_ok absent)]

/-! ## Allocators -/

variable {allocator allocator' : Allocator} {answer : Except AllocError UInt64} {bytes : UInt64}

/-- No cache could be had, or the cache had no page, or an object was served. -/
theorem Allocator.exists_of_allocOf
    (ends : allocator.allocOf size cls heap = .ok (answer, allocator') heap') :
    (∃ error table between,
      allocator.table.provide size cls heap = .ok (.error error, table) between ∧
      answer = .error error ∧ allocator' = { allocator with table } ∧
      heap' = { between with journal := .cacheUnavailable cls.size error :: between.journal }) ∨
    ∃ ref table between,
      allocator.table.provide size cls heap = .ok (.ok ref, table) between ∧
      ((∃ error, table.allocFrom size ref between = .ok (.error error) heap' ∧
        answer = .error error ∧ allocator' = { allocator with table }) ∨
      ∃ object table', table.allocFrom size ref between = .ok (.ok (object, table')) heap' ∧
        answer = .ok object ∧ allocator' = { allocator with table := table' }) := by
  unfold allocOf at ends
  obtain ⟨⟨found, table⟩, between, finds, ends⟩ := bind_ok_iff.1 ends
  cases found with
  | error error =>
    simp only [bind_ok_iff, HeapM.report_ok_iff, pure_ok_iff, Prod.mk.injEq] at ends
    obtain ⟨_, _, rfl, ⟨rfl, rfl⟩, rfl⟩ := ends
    exact .inl ⟨error, table, between, finds, rfl, rfl, rfl⟩
  | ok ref =>
    obtain ⟨served, _, serves, ends⟩ := bind_ok_iff.1 ends
    cases served with
    | error error =>
      simp only [pure_ok_iff, Prod.mk.injEq] at ends
      obtain ⟨⟨rfl, rfl⟩, rfl⟩ := ends
      exact .inr ⟨ref, table, between, finds, .inl ⟨error, serves, rfl, rfl⟩⟩
    | ok served =>
      obtain ⟨object, table'⟩ := served
      simp only [pure_ok_iff, Prod.mk.injEq] at ends
      obtain ⟨⟨rfl, rfl⟩, rfl⟩ := ends
      exact .inr ⟨ref, table, between, finds, .inr ⟨object, table', serves, rfl, rfl⟩⟩

/-- Where no cache can be had, the allocation ends. -/
theorem Allocator.allocOf_refused {between : Heap σ}
    (finds : allocator.table.provide size cls heap = .ok (.error error, table) between) :
    allocator.allocOf size cls heap = .ok (.error error, { allocator with table })
      { between with journal := .cacheUnavailable cls.size error :: between.journal } := by
  unfold allocOf
  rw [bind_ok finds]
  exact bind_ok (HeapM.report_ok _)

/-- A cache that can be had decides the answer. -/
theorem Allocator.allocOf_found {between : Heap σ}
    (finds : allocator.table.provide size cls heap = .ok (.ok ref, table) between)
    (serves : table.allocFrom size ref between =
      .ok (answer.map fun object => (object, table')) heap')
    (kept : ∀ error, answer = .error error → table' = table) :
    allocator.allocOf size cls heap = .ok (answer, { allocator with table := table' }) heap' := by
  unfold allocOf
  rw [bind_ok finds]
  dsimp only
  rw [bind_ok serves]
  cases answer with
  | error error =>
    rw [kept error rfl]
    rfl
  | ok object => rfl

theorem Allocator.alloc_closed (closed : allocator.initialized = false) :
    allocator.alloc size bytes heap = .ok (.error .noMemory, allocator)
      { heap with journal := .notInitialized :: heap.journal } := by
  unfold alloc
  rw [closed]
  rfl

/-- A size has a class unless it is too large. -/
theorem SizeClass.ofRequest?_eq_none_iff : ofRequest? bytes = none ↔ maxObjectSize < bytes := by
  unfold ofRequest?
  split <;> simp_all

theorem Allocator.alloc_tooLarge (opened : allocator.initialized = true)
    (large : SizeClass.ofRequest? bytes = none) :
    allocator.alloc size bytes heap = .ok (.error .invalidParam, allocator)
      { heap with journal := .tooLarge bytes maxObjectSize :: heap.journal } := by
  have beyond := SizeClass.ofRequest?_eq_none_iff.1 large
  have least : ¬ bytes < minObjectSize := by
    have order : minObjectSize < maxObjectSize := by decide
    exact UInt64.not_lt.2 (UInt64.le_of_lt (UInt64.lt_trans order beyond))
  unfold alloc
  rw [if_pos opened, large, if_neg least]
  rfl

/-- What is reported of a size before it gets its class. -/
def raisedEvents (bytes : UInt64) : List Event :=
  if bytes < minObjectSize then [.raised bytes minObjectSize] else []

theorem eq_raised_of_mem {event : Event} (mem : event ∈ raisedEvents bytes) :
    event = .raised bytes minObjectSize := by
  unfold raisedEvents at mem
  split at mem
  · exact List.mem_singleton.1 mem
  · cases mem

theorem Allocator.alloc_eq_allocOf (opened : allocator.initialized = true)
    (request : SizeClass.ofRequest? bytes = some cls) :
    allocator.alloc size bytes heap =
      allocator.allocOf size cls { heap with journal := raisedEvents bytes ++ heap.journal } := by
  unfold alloc raisedEvents
  rw [if_pos opened, request]
  dsimp only
  split
  · exact bind_ok (HeapM.report_ok _)
  · rfl

end

/-! ## Shared heaps -/

namespace SharedHeap

variable {σ : Type} {count : Nat} {shared shared' : SharedHeap σ count} {i : Fin count}

/-- An operation of an allocator that ends replaces the allocator. -/
theorem exists_of_onAllocator {α : Type} {a : α}
    {operation : Allocator → HeapM σ (α × Allocator)}
    (ends : onAllocator i operation shared = .ok a shared') : ∃ allocator heap,
      operation (shared.allocators.get i) shared.heap = .ok (a, allocator) heap ∧
      shared' = { heap, allocators := shared.allocators.set i allocator i.isLt } := by
  unfold onAllocator at ends
  simp only [bind_ok_iff, get_ok_iff, modify_ok_iff, pure_ok_iff] at ends
  obtain ⟨_, _, ⟨rfl, rfl⟩, ⟨b, allocator⟩, between, operated, _, _, rfl, rfl, rfl⟩ := ends
  unfold onHeap at operated
  split at operated
  · rename_i heap ended
    cases operated
    exact ⟨allocator, heap, ended, rfl⟩
  · cases operated

/-- A request for an object is served by its allocator. -/
theorem exists_of_alloc [PageSource σ] {size : PageSize} {bytes : UInt64} {reply : Reply}
    (ends : serve size (.alloc i bytes) shared = .ok reply shared') :
    ∃ answer allocator heap,
      (shared.allocators.get i).alloc size bytes shared.heap = .ok (answer, allocator) heap ∧
      reply = .object answer ∧
      shared' = { heap, allocators := shared.allocators.set i allocator i.isLt } := by
  unfold serve at ends
  obtain ⟨allocator, heap, operated, rfl⟩ := exists_of_onAllocator ends
  simp only [bind_ok_iff, pure_ok_iff, Prod.mk.injEq] at operated
  obtain ⟨⟨answer, _⟩, _, served, ⟨rfl, rfl⟩, rfl⟩ := operated
  exact ⟨answer, allocator, heap, served, rfl, rfl⟩

/-- An object served by an allocator is the answer to the request. -/
theorem serve_alloc_ok [PageSource σ] {size : PageSize} {bytes : UInt64}
    {answer : Except AllocError UInt64} {allocator : Allocator} {heap : Heap σ}
    (ends : (shared.allocators.get i).alloc size bytes shared.heap = .ok (answer, allocator) heap) :
    serve size (.alloc i bytes) shared =
      .ok (.object answer) { heap, allocators := shared.allocators.set i allocator i.isLt } := by
  rw [serve]
  refine onAllocator_ok ?_
  rw [bind_ok ends]
  rfl

end SharedHeap

end SlabHeap
