import SlabHeap.Proofs.PageCalls

/-!
# One cache over any page source

A cache of any object size is asked for objects and given them back, over any page
source that can be described, whatever its pages contain when they are handed out.
Callers write into their objects, and the source may change by itself.  The calls of
the cache are recorded, so the pages that it holds are those that were handed out and
not given back since (`PageCall.HandedOut`).

A view of the cache is kept by every step (`Cache.ReachableOver.exists_housed`), if a
page has room for an object.  Then no request of the cache stops at a fault, and what
it hands out lies in a page that it holds (`Cache.ReachableOver.alloc_within`).  If a
page has no room, carving writes nothing, and the cache reads a header from whatever
the page contains (`Cache.ReachableOver.alloc_unfit`).
-/

namespace SlabHeap

variable {size : PageSize} {σ : Type} [PageSource σ]

/-- What a new cache and its callers lead to, with the objects that are live: served
and not freed since. -/
inductive Cache.ReachableOver (model : PageModel size σ) (objectSize : UInt64) :
    Heap (Recorded σ) → Cache → List UInt64 → Prop
  | start {heap : Heap (Recorded σ)} {source : model.View} :
    model.Describes source 0 heap.source.source heap.memory → heap.source.calls = [] →
      ReachableOver model objectSize heap { objectSize } []
  | shift {heap : Heap (Recorded σ)} {cache : Cache} {live : List UInt64} {source : σ}
      {memory : Memory} :
    ReachableOver model objectSize heap cache live →
      model.Shifts heap.source.source heap.memory source memory →
      ReachableOver model objectSize
        { heap with source := { heap.source with source }, memory } cache live
  | write {heap : Heap (Recorded σ)} {cache : Cache} {live : List UInt64}
      {object address : UInt64} {values : List UInt8} :
    ReachableOver model objectSize heap cache live → object ∈ live →
      Memory.run address values.length ⊆ Memory.run object objectSize.toNat →
      ReachableOver model objectSize
        { heap with memory := heap.memory.setBytes address values } cache live
  | refused {heap heap' : Heap (Recorded σ)} {cache cache' : Cache} {live : List UInt64}
      {error : AllocError} :
    ReachableOver model objectSize heap cache live →
      cache.alloc size heap = .ok (.error error, cache') heap' →
      ReachableOver model objectSize heap' cache' live
  | served {heap heap' : Heap (Recorded σ)} {cache cache' : Cache} {live : List UInt64}
      {object : UInt64} :
    ReachableOver model objectSize heap cache live →
      cache.alloc size heap = .ok (.ok object, cache') heap' →
      ReachableOver model objectSize heap' cache' (object :: live)
  | freed {heap heap' : Heap (Recorded σ)} {cache cache' : Cache} {live : List UInt64}
      {object : UInt64} :
    ReachableOver model objectSize heap cache live → object ∈ live →
      cache.free size object heap = .ok cache' heap' →
      ReachableOver model objectSize heap' cache' (live.erase object)

/-- The cache is as a view has it, on pages that were taken from the source, and the
live objects are those of the view. -/
structure Cache.Housed (model : PageModel size σ) (objectSize : UInt64) (view : CacheView)
    (source : model.View) (heap : Heap σ) (cache : Cache) (live : List UInt64) : Prop where
  objectSize : view.objectSize = objectSize
  describes : view.Describes size cache heap.memory
  sound : view.Sound size
  source : model.Describes source view.pages heap.source heap.memory
  live : (live : Multiset UInt64) = view.objects size

namespace Cache.Housed

variable {model : PageModel size σ} {objectSize object address : UInt64} {view : CacheView}
  {source : model.View} {heap : Heap σ} {cache : Cache} {live : List UInt64}

/-- A new cache holds no page. -/
theorem start (objectSize : UInt64) (known : model.Describes source 0 heap.source heap.memory) :
    Housed model objectSize { objectSize } source heap { objectSize } [] :=
  ⟨rfl, .fresh size objectSize heap.memory, .nil size objectSize, known, rfl⟩

variable (h : Housed model objectSize view source heap cache live) (fits : size.Fits objectSize)

include h

theorem split_source : model.Describes source (view.pages + 0) heap.source heap.memory := by
  rw [Multiset.add_zero]
  exact h.source

theorem mem_objects (mem : object ∈ live) : object ∈ view.objects size := by
  rw [← h.live]
  exact Multiset.mem_coe.2 mem

include fits

theorem regular : view.Regular size :=
  h.sound.regular_of_source (h.objectSize ▸ fits) h.split_source

/-- An object lies in a page that is held. -/
theorem exists_page (mem : object ∈ live) : ∃ page ∈ view.pages, page.toNat ≤ object.toNat ∧
    object.toNat + objectSize.toNat ≤ page.toNat + size.bytes.toNat := by
  have regular := h.regular fits
  obtain ⟨slab, held, slot, inRange, _, rfl⟩ := regular.mem_objects.1 (h.mem_objects mem)
  have held := CacheView.mem_pages held
  rw [h.objectSize] at inRange ⊢
  have stop := fits.slot_end_le inRange
  refine ⟨slab.base, held, ?_⟩
  rw [fits.toNat_slotAddress (regular.aligned _ held) inRange, PageSize.toNat_bytes_eq_length]
  omega

/-- Different live objects have no byte in common. -/
theorem disjoint {other : UInt64} (mem : object ∈ live) (mem' : other ∈ live)
    (differ : object ≠ other) :
    Disjoint (Memory.run object objectSize.toNat) (Memory.run other objectSize.toNat) := by
  have apart := (h.regular fits).disjoint_objects (h.mem_objects mem) (h.mem_objects mem') differ
  rwa [h.objectSize] at apart

/-- No object is live twice. -/
theorem nodup : live.Nodup := by
  have nodup := (h.regular fits).nodup_objects
  rwa [← h.live, Multiset.coe_nodup] at nodup

/-- Memory outside of the pages held may change with the source. -/
theorem shift {source' : model.View} {state : σ} {memory : Memory}
    (known : model.Describes source' view.pages state memory)
    (same : Set.EqOn memory.byte heap.memory.byte (size.covered view.pages)) :
    Housed model objectSize view source' { heap with source := state, memory } cache live := by
  have regular := h.regular fits
  exact ⟨h.objectSize,
    h.describes.congr (fun _ => regular) (same.mono regular.notes_subset_covered), h.sound, known,
    h.live⟩

/-- A write into a live object leaves what is known of the cache. -/
theorem write {values : List UInt8} (mem : object ∈ live)
    (inside : Memory.run address values.length ⊆ Memory.run object objectSize.toNat) :
    Housed model objectSize view source
      { heap with memory := heap.memory.setBytes address values } cache live := by
  have regular := h.regular fits
  rw [← h.objectSize] at inside
  have body := inside.trans (regular.run_object_subset_bodies (h.mem_objects mem))
  have away := regular.subset_compl_notes (model.nodup h.split_source)
  have same := Memory.eqOn_setBytes heap.memory address values
  refine ⟨h.objectSize, h.describes.congr (fun _ => regular) (same.mono ?_), h.sound,
    model.congr h.source (same.mono (Set.compl_subset_compl.2 ?_)), h.live⟩
  · exact Set.subset_compl_comm.1 (body.trans (Set.subset_union_right.trans away))
  · exact body.trans CacheView.bodies_subset_covered

/-- An allocation ends, with a refusal that changes nothing in the cache, or with an
object that is live from then on. -/
theorem alloc : ∃ (answer : Except AllocError UInt64) (cache' : Cache) (view' : CacheView)
    (source' : model.View) (heap' : Heap σ),
    cache.alloc size heap = .ok (answer, cache') heap' ∧
    Housed model objectSize view' source' heap' cache'
      (match answer with
      | .ok object => object :: live
      | .error _ => live) ∧
    ∀ error, answer = .error error → cache' = cache := by
  have fits' : size.Fits view.objectSize := h.objectSize ▸ fits
  obtain ⟨_, heap', ⟨answer, view'⟩, source', ends, runs, cache', rfl, refused, carried⟩ :=
    Cache.alloc_follows fits' h.sound h.describes h.split_source
  have allocated := (CacheView.alloc_always fits' h.sound).of_runs runs
  have known := carried.source
  rw [Multiset.add_zero] at known
  refine ⟨answer, cache', view', source', heap', ends, ⟨allocated.objectSize.trans h.objectSize,
    carried.describes, allocated.sound, known, ?_⟩, refused⟩
  rw [allocated.objects, ← h.live]
  cases answer with
  | error _ => exact (Multiset.zero_add _).symm
  | ok _ => rfl

/-- A free of a live object ends, and the object is no longer live. -/
theorem free (mem : object ∈ live) : ∃ cache' view' source' heap',
    cache.free size object heap = .ok cache' heap' ∧
    Housed model objectSize view' source' heap' cache' (live.erase object) := by
  have fits' : size.Fits view.objectSize := h.objectSize ▸ fits
  have mem' := h.mem_objects mem
  obtain ⟨cache', heap', view', source', ends, runs, carried⟩ :=
    Cache.free_follows fits' h.sound h.describes h.split_source mem'
  have freed := (CacheView.free_always (h.regular fits) h.sound mem').of_runs runs
  have known := carried.source
  rw [Multiset.add_zero] at known
  refine ⟨cache', view', source', heap', ends, freed.objectSize.trans h.objectSize,
    carried.describes, freed.sound, known, ?_⟩
  rw [← Multiset.coe_erase, h.live, freed.objects, Multiset.singleton_add,
    Multiset.erase_cons_head]

end Cache.Housed

namespace Cache.ReachableOver

variable {model : PageModel size σ} {objectSize : UInt64} {heap : Heap (Recorded σ)}
  {cache : Cache} {live : List UInt64}

/-- Every step keeps a view of the cache. -/
theorem exists_housed (fits : size.Fits objectSize)
    (reachable : ReachableOver model objectSize heap cache live) :
    ∃ view source, Housed model.recorded objectSize view source heap cache live := by
  induction reachable with
  | @start heap source known none =>
    refine ⟨{ objectSize }, (source, []), .start objectSize ⟨known, none, trivial, fun page => ?_⟩⟩
    simp [PageCall.HandedOut]
  | shift _ shifts ih =>
    obtain ⟨view, source, housed⟩ := ih
    obtain ⟨known, calls, agrees⟩ := housed.source
    obtain ⟨⟨source', known'⟩, same⟩ := shifts source.1 view.pages known
    exact ⟨view, (source', source.2), housed.shift fits ⟨known', calls, agrees⟩ same⟩
  | write _ mem inside ih =>
    obtain ⟨view, source, housed⟩ := ih
    exact ⟨view, source, housed.write fits mem inside⟩
  | refused _ ends ih =>
    obtain ⟨view, source, housed⟩ := ih
    obtain ⟨answer, cache', view', source', heap', ends', housed', _⟩ := housed.alloc fits
    rw [ends] at ends'
    cases ends'
    exact ⟨view', source', housed'⟩
  | served _ ends ih =>
    obtain ⟨view, source, housed⟩ := ih
    obtain ⟨answer, cache', view', source', heap', ends', housed', _⟩ := housed.alloc fits
    rw [ends] at ends'
    cases ends'
    exact ⟨view', source', housed'⟩
  | freed _ mem ends ih =>
    obtain ⟨view, source, housed⟩ := ih
    obtain ⟨cache', view', source', heap', ends', housed'⟩ := housed.free fits mem
    rw [ends] at ends'
    cases ends'
    exact ⟨view', source', housed'⟩

/-- **A cache hands out what fits.**  For every object size of which a page has room
for one, over every page source that can be described and whatever its pages contain,
a cache whose callers free only live objects never stops at a fault.  An object that
it hands out lies in a page that it holds, and shares no byte with another live
object. -/
theorem alloc_within (fits : size.Fits objectSize)
    (reachable : ReachableOver model objectSize heap cache live) :
    (∃ answer cache' heap', cache.alloc size heap = .ok (answer, cache') heap') ∧
    (∀ object ∈ live, ∃ cache' heap', cache.free size object heap = .ok cache' heap') ∧
    ∀ object cache' heap', cache.alloc size heap = .ok (.ok object, cache') heap' →
      (∃ page, PageCall.HandedOut page heap'.source.calls ∧ page.toNat ≤ object.toNat ∧
        object.toNat + objectSize.toNat ≤ page.toNat + size.bytes.toNat) ∧
      ∀ other ∈ live,
        Disjoint (Memory.run object objectSize.toNat) (Memory.run other objectSize.toNat) := by
  obtain ⟨view, source, housed⟩ := reachable.exists_housed fits
  refine ⟨?alloc, ?free, ?served⟩
  case alloc =>
    obtain ⟨answer, cache', _, _, heap', ends, _⟩ := housed.alloc fits
    exact ⟨answer, cache', heap', ends⟩
  case free =>
    intro object mem
    obtain ⟨cache', _, _, heap', ends, _⟩ := housed.free fits mem
    exact ⟨cache', heap', ends⟩
  case served =>
    intro object cache' heap' ends
    obtain ⟨view', source', housed'⟩ := (reachable.served ends).exists_housed fits
    obtain ⟨page, held, within⟩ := housed'.exists_page fits List.mem_cons_self
    obtain ⟨_, noted, agrees⟩ := housed'.source
    have fresh := (List.nodup_cons.1 (housed'.nodup fits)).1
    refine ⟨⟨page, ?_, within⟩, fun other mem => ?_⟩
    · rw [noted]
      exact (agrees.handedOut page).2 held
    · exact housed'.disjoint fits List.mem_cons_self (List.mem_cons_of_mem _ mem)
        fun same => fresh (same ▸ mem)

/-! ## Over a metered pool -/

/-- The answer of requests that are made on a metered pool to which three pages were added. -/
def onPool {α : Type} (requests : HeapM (Recorded (MeteredPool PageSize.default)) α) : Option α :=
  match HeapM.addMemory 0x10010 0x4000 ({ source := {} } : Heap (MeteredPool PageSize.default)) with
  | .ok _ heap => requests.run' { heap with source := { source := heap.source } }
  | .error _ _ => none

/-- A cache may start where the requests do. -/
theorem exists_of_onPool (wide : 8 ≤ PageSize.default.length) {α : Type} {answer : α}
    {requests : HeapM (Recorded (MeteredPool PageSize.default)) α}
    (answers : onPool requests = some answer) :
    ∃ heap heap' : Heap (Recorded (MeteredPool PageSize.default)),
      (∀ objectSize, ReachableOver (MeteredPool.model wide) objectSize heap { objectSize } []) ∧
      requests heap = .ok answer heap' := by
  let empty : Heap (MeteredPool PageSize.default) := { source := {} }
  have known : ({} : PoolView).Describes 0 empty.source empty.memory := .fresh {}
  have fresh : ∀ page ∈ (Extent.mk 0x10010 0x4000).pages PageSize.default,
      page ∉ ({} : PoolView).added := fun _ _ => Multiset.notMem_zero _
  obtain ⟨heap, added, described, _⟩ := HeapM.addMemory_adds known fresh
  have accepted : (({} : PoolView).addRegion PageSize.default ⟨0x10010, 0x4000⟩).1 = .ok () := by
    decide +kernel
  rw [accepted] at added
  rw [onPool, added] at answers
  obtain ⟨heap', ended⟩ := exists_ok_of_run' answers
  exact ⟨{ heap with source := { source := heap.source } }, heap',
    fun objectSize => .start described rfl, ended⟩

/-- Two objects of 1999 bytes, the second beside the first. -/
theorem alloc_within_second :
    ∃ (wide : 8 ≤ PageSize.default.length) (heap heap' : Heap (Recorded (MeteredPool .default)))
      (cache cache' : Cache),
      PageSize.default.Fits 1999 ∧
      ReachableOver (MeteredPool.model wide) 1999 heap cache [0x11030] ∧
      cache.alloc PageSize.default heap = .ok (.ok 0x117ff, cache') heap' ∧
      (∃ page, PageCall.HandedOut page heap'.source.calls ∧
        page.toNat ≤ (0x117ff : UInt64).toNat ∧
        (0x117ff : UInt64).toNat + (1999 : UInt64).toNat ≤
          page.toNat + PageSize.default.bytes.toNat) ∧
      ∀ other ∈ [0x11030], Disjoint (Memory.run 0x117ff (1999 : UInt64).toNat)
        (Memory.run other (1999 : UInt64).toNat) := by
  have fits : PageSize.default.Fits 1999 := ⟨by decide, by decide +kernel⟩
  let opened : Cache :=
    { objectSize := 1999, space := { head := some ⟨0x11000⟩, length := 1 }, pages := 1, live := 1 }
  let filled : Cache := { objectSize := 1999, pages := 1, live := 2 }
  let requests : HeapM (Recorded (MeteredPool PageSize.default))
      ((Except AllocError UInt64 × Cache) × Except AllocError UInt64 × Cache) := do
    let first ← ({ objectSize := 1999 } : Cache).alloc PageSize.default
    let second ← opened.alloc PageSize.default
    return (first, second)
  have answers : onPool requests =
      some ((.ok 0x11030, opened), .ok 0x117ff, filled) := by
    decide +kernel
  obtain ⟨_, _, starts, ended⟩ := exists_of_onPool fits.wide answers
  obtain ⟨_, heap, first, ended⟩ := exists_ok_of_bind ended
  obtain ⟨_, heap', second, ended⟩ := exists_ok_of_bind ended
  obtain ⟨rfl, rfl⟩ := Prod.mk.inj (EStateM.Result.ok.inj ended).1
  have reachable := (starts 1999).served first
  obtain ⟨_, _, served⟩ := reachable.alloc_within fits
  exact ⟨fits.wide, heap, heap', opened, filled, fits, reachable, second, served _ _ _ second⟩

/-- Where a page of zeros has no room for an object, the cache hands out address zero, which is
in no page that it holds. -/
theorem alloc_unfit :
    capacity PageSize.default.bytes 4096 = .ok 0 ∧
    ∃ (wide : 8 ≤ PageSize.default.length) (heap heap' : Heap (Recorded (MeteredPool .default)))
      (cache : Cache),
      ReachableOver (MeteredPool.model wide) 4096 heap { objectSize := 4096 } [] ∧
      ({ objectSize := 4096 } : Cache).alloc PageSize.default heap = .ok (.ok 0, cache) heap' ∧
      heap'.source.calls = [.take (.ok 0x11000)] ∧
      ¬ ∃ page, PageCall.HandedOut page heap'.source.calls ∧
        page.toNat ≤ (0 : UInt64).toNat ∧
        (0 : UInt64).toNat + (4096 : UInt64).toNat ≤ page.toNat + PageSize.default.bytes.toNat := by
  have wide : 8 ≤ PageSize.default.length := by decide
  let opened : Cache :=
    { objectSize := 4096, space := { head := some ⟨0x11000⟩, length := 1 }, pages := 1, live := 1 }
  let request : HeapM (Recorded (MeteredPool PageSize.default))
      ((Except AllocError UInt64 × Cache) × List PageCall) := do
    let served ← ({ objectSize := 4096 } : Cache).alloc PageSize.default
    return (served, (← get).source.calls)
  have answers : onPool request = some ((.ok 0, opened), [.take (.ok 0x11000)]) := by
    decide +kernel
  obtain ⟨_, _, starts, ended⟩ := exists_of_onPool wide answers
  obtain ⟨served, heap', serves, ended⟩ := exists_ok_of_bind ended
  rw [bind_ok get_ok] at ended
  have results := (EStateM.Result.ok.inj ended).1
  obtain ⟨rfl, calls⟩ := Prod.mk.inj results
  refine ⟨by decide +kernel, wide, _, heap', opened, starts 4096, serves, calls, ?_⟩
  rintro ⟨page, handedOut, below, _⟩
  rw [calls] at handedOut
  obtain taken | none := handedOut
  · cases taken
    exact absurd below (by decide)
  · exact none

end Cache.ReachableOver

end SlabHeap
