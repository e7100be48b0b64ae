import Mathlib.Data.List.ReduceOption
import SlabHeap.Proofs.CacheGroups
import SlabHeap.Proofs.NumberedCache

/-!
# Caches do not notice each other

Caches that share a page source may be used in any order, and pages that one cache gives back
may be handed out to another one.  Still each cache does what it would do alone, but for the
addresses of its pages.

A `Diary` is kept for each cache of a group.  It says what the cache was asked for, what could be
seen of it after that, and it names pages by the order in which the cache obtained them.
`CacheGroup.Session` are the runs of a group over any page source, in any interleaving.  As long
as no object is refused, the diary of a cache is what `NumberedCache.replay` makes of the calls
(`Diary.Tells`), and this does not depend on the other caches, on the source or on memory.  So
equal calls have equal diaries (`CacheGroup.Session.turns_eq`).

It does not matter to whom the caches belong.  An allocator is a caller like any other: it asks
its caches for objects, one call after another, and what it keeps in objects of its bootstrap
cache are bytes written into live objects.
-/

namespace SlabHeap

/-! ## Diaries -/

/-- The pages that were handed out. -/
def PageCall.taken (calls : List PageCall) : List UInt64 :=
  calls.filterMap fun
    | take (.ok page) => some page
    | _ => none

/-- The requests that were refused. -/
def PageCall.refused (calls : List PageCall) : List AllocError :=
  calls.filterMap fun
    | take (.error error) => some error
    | _ => none

/-- The pages that were given back. -/
def PageCall.given (calls : List PageCall) : List UInt64 :=
  calls.filterMap fun
    | give page => some page
    | _ => none

/-- What can be seen of a cache after a call: what it tells about itself, the object that was
served and its slot, and the pages given back.  The pages obtained so far number the pages. -/
def Turn.of (size : PageSize) (obtained : List UInt64) (stats : CacheStats) (memory : Memory)
    (object? : Option UInt64) (released : List UInt64) : Turn where
  pages := stats.pages
  live := stats.live
  partialSlabs := stats.partialSlabs
  front := stats.front.map fun slab => pageNumber? obtained slab.base
  served := object?.map fun object => (pageNumber? obtained (size.pageOf object),
    ((Slab.mk (size.pageOf object)).slotOf memory object).toOption)
  released := released.map (pageNumber? obtained)

/-- What is known of the history of a cache. -/
structure Diary where
  /-- The pages that the cache obtained, the latest first. -/
  obtained : List UInt64 := []
  /-- The objects that it served, and nothing for those taken back. -/
  objects : List (Option UInt64) := []
  /-- The requests for a page that failed. -/
  refusals : List AllocError := []
  /-- What it was asked for and what it did, the latest first. -/
  log : List (CacheCall × Turn) := []

namespace Diary

/-- What the cache was asked for, the latest first. -/
def calls (diary : Diary) : List CacheCall := diary.log.map Prod.fst

/-- What could be seen of the cache, the latest first. -/
def turns (diary : Diary) : List Turn := diary.log.map Prod.snd

/-- No request for a page failed. -/
def Granted (diary : Diary) : Prop := diary.refusals = []

/-- The objects after a call. -/
def objectsAfter (diary : Diary) (object? : Option UInt64) : CacheCall → List (Option UInt64)
  | .alloc => diary.objects ++ object?.toList.map some
  | .free object => diary.objects.set object none

/-- The diary after a call. -/
def note {σ : Type} {count : Nat} (size : PageSize) (i : Fin count)
    (group group' : CacheGroup (Recorded σ) count) (call : CacheCall) (object? : Option UInt64)
    (diary : Diary) : Diary :=
  let calls := group'.heap.source.calls.take
    (group'.heap.source.calls.length - group.heap.source.calls.length)
  let obtained := PageCall.taken calls ++ diary.obtained
  { obtained
    objects := diary.objectsAfter object? call
    refusals := PageCall.refused calls ++ diary.refusals
    log := (call, .of size obtained (group'.caches.get i).stats group'.heap.memory object?
      (PageCall.given calls)) :: diary.log }

end Diary

/-! ## Sessions -/

variable {size : PageSize} {σ : Type} [PageSource σ] {count : Nat}

/-- What happens to caches of the given sizes over a page source, with a diary for each cache.
Each of them serves objects and takes back the ones it served, callers write into live objects,
and the source may change by itself. -/
inductive CacheGroup.Session (model : PageModel size σ) (sizes : Fin count → UInt64) :
    CacheGroup (Recorded σ) count → (Fin count → Diary) → Prop
  | start {heap : Heap (Recorded σ)} {source : model.View} :
    model.Describes source 0 heap.source.source heap.memory → heap.source.calls = [] →
      Session model sizes
        { heap, caches := Vector.ofFn fun i => { objectSize := sizes i } } fun _ => {}
  | shift {group : CacheGroup (Recorded σ) count} {diaries : Fin count → Diary} {source : σ}
      {memory : Memory} :
    Session model sizes group diaries →
      model.Shifts group.heap.source.source group.heap.memory source memory →
      Session model sizes { group with
        heap := { group.heap with source := { group.heap.source with source }, memory } } diaries
  | write {group : CacheGroup (Recorded σ) count} {diaries : Fin count → Diary} {i : Fin count}
      {object address : UInt64} {values : List UInt8} :
    Session model sizes group diaries → some object ∈ (diaries i).objects →
      Memory.run address values.length ⊆ Memory.run object (sizes i).toNat →
      Session model sizes { group with heap := { group.heap with
        memory := group.heap.memory.setBytes address values } } diaries
  | alloc {group group' : CacheGroup (Recorded σ) count} {diaries : Fin count → Diary}
      {i : Fin count} {answer : Except AllocError UInt64} :
    Session model sizes group diaries → CacheGroup.alloc size i group = .ok answer group' →
      Session model sizes group' (Function.update diaries i
        ((diaries i).note size i group group' .alloc answer.toOption))
  | free {group group' : CacheGroup (Recorded σ) count} {diaries : Fin count → Diary}
      {i : Fin count} {k : Nat} {object : UInt64} :
    Session model sizes group diaries → (diaries i).objects[k]? = some (some object) →
      CacheGroup.free size i object group = .ok () group' →
      Session model sizes group' (Function.update diaries i
        ((diaries i).note size i group group' (.free k) none))

/-- No call of a cache gets stuck: an object is served or refused, and each live one is taken
back. -/
def CacheGroup.Answers (size : PageSize) (group : CacheGroup (Recorded σ) count) (i : Fin count)
    (diary : Diary) : Prop :=
  (∃ answer group', CacheGroup.alloc size i group = .ok answer group') ∧
    ∀ (k : Nat) (object : UInt64), diary.objects[k]? = some (some object) →
      ∃ group', CacheGroup.free size i object group = .ok () group'

/-- Caches without a slab, and a page source whose calls are recorded from now on. -/
def CacheGroup.recording (sizes : Fin count → UInt64) (heap : Heap σ) :
    CacheGroup (Recorded σ) count where
  heap := { heap with source := { source := heap.source } }
  caches := Vector.ofFn fun i => { objectSize := sizes i }

/-- Let caches do what they are asked for, one call after another.  Nothing comes of a call that
does not end, and of an object that is not live. -/
def CacheGroup.play (size : PageSize) : List (Fin count × CacheCall) →
    CacheGroup (Recorded σ) count × (Fin count → Diary) →
      Option (CacheGroup (Recorded σ) count × (Fin count → Diary))
  | [], state => some state
  | (i, .alloc) :: rest, (group, diaries) =>
    match CacheGroup.alloc size i group with
    | .ok answer group' => play size rest (group',
        Function.update diaries i ((diaries i).note size i group group' .alloc answer.toOption))
    | .error _ _ => none
  | (i, .free k) :: rest, (group, diaries) =>
    match (diaries i).objects[k]? with
    | some (some object) =>
      match CacheGroup.free size i object group with
      | .ok _ group' => play size rest (group',
          Function.update diaries i ((diaries i).note size i group group' (.free k) none))
      | .error _ _ => none
    | _ => none

theorem CacheGroup.Session.of_play {model : PageModel size σ} {sizes : Fin count → UInt64}
    {group group' : CacheGroup (Recorded σ) count} {diaries diaries' : Fin count → Diary}
    {calls : List (Fin count × CacheCall)} (session : Session model sizes group diaries)
    (played : CacheGroup.play size calls (group, diaries) = some (group', diaries')) :
    Session model sizes group' diaries' := by
  induction calls generalizing group diaries with
  | nil =>
    cases played
    exact session
  | cons first rest ih =>
    obtain ⟨i, call⟩ := first
    cases call with
    | alloc =>
      rw [CacheGroup.play] at played
      split at played
      · rename_i ends
        exact ih (session.alloc ends) played
      · cases played
    | free k =>
      rw [CacheGroup.play] at played
      split at played
      · rename_i held
        split at played
        · rename_i ends
          exact ih (session.free held ends) played
        · cases played
      · cases played

/-! ## What diaries tell -/

/-- The slot of an object is found in the header of its slab. -/
theorem CacheView.Describes.slotOf_object {view : CacheView} {cache : Cache} {memory : Memory}
    {object : UInt64} (h : view.Describes size cache memory) (regular : view.Regular size)
    (mem : object ∈ view.objects size) : (Slab.mk (size.pageOf object)).slotOf memory object =
      .ok (size.slotAt view.objectSize object) := by
  obtain ⟨slab, held, slot, inRange, _, rfl⟩ := regular.mem_objects.1 mem
  have aligned := regular.aligned _ (mem_pages held)
  rw [regular.fits.pageOf_slotAddress aligned inRange,
    regular.fits.slotAt_slotAddress aligned inRange]
  exact (h.slabs slab held).slotOf_eq regular.fits inRange

/-- Where no object is served, a request for a page was refused. -/
theorem CacheView.calls_of_refused {model : PageModel size σ} {view view' : CacheView}
    {source source' : model.recorded.View} {error : AllocError}
    (run : (view.alloc size).Runs model.recorded source (.error error, view') source') :
    source'.2 = .take (.error error) :: source.2 := by
  unfold CacheView.alloc at run
  split at run
  · obtain ⟨answer, middle, ⟨_, calls⟩, run⟩ := run
    cases answer with
    | error other =>
      obtain ⟨same, rfl⟩ := run
      cases same
      exact calls
    | ok page => cases run.1
  · cases run.1

namespace Diary

/-- The number of a page. -/
def number (diary : Diary) (page : UInt64) : Nat := (pageNumber? diary.obtained page).getD 0

/-- The page and the slot of an object. -/
def place (size : PageSize) (objectSize : UInt64) (diary : Diary) (object : UInt64) :
    Nat × UInt64 :=
  (diary.number (size.pageOf object), size.slotAt objectSize object)

/-- The cache in numbers. -/
def numbered (size : PageSize) (view : CacheView) (diary : Diary) : NumberedCache where
  obtained := diary.obtained.length
  slabs := view.numbered diary.number
  objects := diary.objects.map (Option.map (diary.place size view.objectSize))

/-- The pages of the cache are numbered, and its objects are those that were served. -/
structure Knows (size : PageSize) (diary : Diary) (view : CacheView) : Prop where
  held : ∀ page ∈ view.pages, page ∈ diary.obtained
  live : (diary.objects.reduceOption : Multiset UInt64) = view.objects size

/-- As long as nothing was refused, the cache did what it would do alone. -/
structure Tells (size : PageSize) (objectSize : UInt64) (diary : Diary) (view : CacheView) :
    Prop where
  sizes : view.objectSize = objectSize
  knows : diary.Knows size view
  replayed : diary.Granted →
    NumberedCache.replay size objectSize diary.calls = (diary.turns, diary.numbered size view)

variable {diary : Diary} {view : CacheView} {page object base slot : UInt64}
  {rest : List SlabView} {k : Nat} {slots released : List UInt64}

theorem pageNumber?_eq (mem : page ∈ diary.obtained) :
    pageNumber? diary.obtained page = some (diary.number page) := by
  obtain ⟨number, known⟩ := exists_pageNumber? mem
  rw [Diary.number, known]
  rfl

theorem number_injOn : Set.InjOn diary.number {page | page ∈ diary.obtained} := by
  intro page mem page' mem' same
  have known := pageNumber?_eq mem'
  rw [← same] at known
  exact pageNumber?_inj (pageNumber?_eq mem) known

/-- An object that is taken back is not live any more. -/
theorem coe_reduceOption {objects : List (Option UInt64)}
    (held : objects[k]? = some (some object)) :
    (objects.reduceOption : Multiset UInt64) =
      object ::ₘ (objects.set k none).reduceOption := by
  induction objects generalizing k with
  | nil => cases held
  | cons first rest ih =>
    cases k with
    | zero =>
      obtain rfl : first = some object := Option.some.inj held
      rfl
    | succ k =>
      have later := ih held
      cases first with
      | none => exact later
      | some other =>
        rw [List.set_cons_succ, List.reduceOption_cons_of_some, List.reduceOption_cons_of_some,
          ← Multiset.cons_coe, ← Multiset.cons_coe, later, Multiset.cons_swap]

namespace Knows

variable (knows : diary.Knows size view)

include knows

theorem number_injOn_pages : Set.InjOn diary.number {page | page ∈ view.pages} :=
  number_injOn.mono knows.held

theorem mem_objects (mem : some object ∈ diary.objects) : object ∈ view.objects size := by
  rw [← knows.live]
  exact Multiset.mem_coe.2 (List.reduceOption_mem_iff.2 mem)

variable (regular : view.Regular size)

include regular

/-- What can be seen of the cache is what is seen in numbers. -/
theorem turn_eq {cache : Cache} {memory : Memory} {object? : Option UInt64}
    (described : view.Describes size cache memory)
    (served : ∀ object ∈ object?, object ∈ view.objects size)
    (known : ∀ page ∈ released, page ∈ diary.obtained) :
    Turn.of size diary.obtained cache.stats memory object? released =
      (diary.numbered size view).turn (object?.map (diary.place size view.objectSize))
        (released.map diary.number) := by
  have pages : view.slabs.length = view.room.length + view.full.length := by simp [CacheView.slabs]
  have live : (view.objects size).card = diary.objects.reduceOption.length := by
    rw [← knows.live, Multiset.coe_card]
  have front : (view.room.map SlabView.slab).head?.map
        (fun slab => pageNumber? diary.obtained slab.base) =
      (view.room.map (SlabView.numbered diary.number)).head?.map
        fun slab => some slab.number := by
    rcases room : view.room with _ | ⟨slab, rest⟩
    · rfl
    · have held := knows.held slab.base (CacheView.base_mem_pages (room ▸ List.mem_cons_self))
      exact congrArg some (pageNumber?_eq held)
  have place : object?.map (fun object => (pageNumber? diary.obtained (size.pageOf object),
        ((Slab.mk (size.pageOf object)).slotOf memory object).toOption)) =
      (object?.map (diary.place size view.objectSize)).map
        fun place => (some place.1, some place.2) := by
    cases object? with
    | none => rfl
    | some object =>
      have mem := served object rfl
      have number := pageNumber?_eq (knows.held _ (regular.pageOf_mem mem))
      simp only [Option.map_some, Diary.place, number, described.slotOf_object regular mem]
      rfl
  have gone : released.map (pageNumber? diary.obtained) =
      (released.map diary.number).map some := by
    rw [List.map_map]
    exact List.map_congr_left fun page mem => pageNumber?_eq (known page mem)
  rw [Turn.of, described.stats_eq, CacheView.stats, NumberedCache.turn, numbered]
  simp only [CacheView.numbered, front, place, gone, pages, live, List.reduceOption_map,
    List.length_map]

/-- A page is obtained. -/
theorem openSlab (room : view.room = []) (fresh : page ∉ view.pages) :
    ({ diary with obtained := page :: diary.obtained } : Diary).Knows size
        (view.openSlab size page) ∧
      (diary.numbered size view).prepared size view.objectSize =
        ({ diary with obtained := page :: diary.obtained } : Diary).numbered size
          (view.openSlab size page) := by
  have other (other : UInt64) (held : other ∈ view.pages) :
      ({ diary with obtained := page :: diary.obtained } : Diary).number other =
        diary.number other := by
    have differ : page ≠ other := fun same => fresh (same ▸ held)
    rw [Diary.number, pageNumber?, if_neg differ]
    rfl
  have own : ({ diary with obtained := page :: diary.obtained } : Diary).number page =
      diary.obtained.length := by
    rw [Diary.number, pageNumber?, if_pos rfl]
    rfl
  refine ⟨⟨fun held mem => ?_, ?_⟩, ?_⟩
  · rcases Multiset.mem_cons.1 (show held ∈ page ::ₘ view.pages from mem) with rfl | mem
    · exact List.mem_cons_self
    · exact .tail _ (knows.held held mem)
  · rw [CacheView.objects_openSlab]
    exact knows.live
  · have none : (diary.numbered size view).slabs.room = [] := by
      rw [numbered, CacheView.numbered, room]
      rfl
    have objects : diary.objects.map (Option.map (diary.place size view.objectSize)) =
        diary.objects.map (Option.map (({ diary with obtained := page :: diary.obtained } :
          Diary).place size view.objectSize)) := by
      refine List.map_congr_left fun object? mem => ?_
      cases object? with
      | none => rfl
      | some object =>
        rw [Option.map_some, Option.map_some, place, place,
          other _ (regular.pageOf_mem (knows.mem_objects mem))]
    rw [NumberedCache.prepared, none]
    dsimp only
    rw [numbered, numbered, CacheView.numbered_openSlab, own, CacheView.numbered_congr other,
      objects]
    rfl

/-- An object is served from the slab in front. -/
theorem serve (first : view.room = ⟨base, slot :: slots⟩ :: rest)
    (served : view.Served size (view.serve size).1 (view.serve size).2) :
    ({ diary with objects := diary.objects ++ [some (view.serve size).1] } : Diary).Knows size
        (view.serve size).2 ∧
      (diary.numbered size view).serve =
        ((({ diary with objects := diary.objects ++ [some (view.serve size).1] } : Diary).numbered
            size (view.serve size).2).turn
          (some (diary.place size view.objectSize (view.serve size).1)) [],
        ({ diary with objects := diary.objects ++ [some (view.serve size).1] } : Diary).numbered
          size (view.serve size).2) := by
  have listed : SlabView.mk base (slot :: slots) ∈ view.slabs :=
    List.mem_append_left _ (first ▸ List.mem_cons_self)
  have aligned := regular.aligned _ (CacheView.mem_pages listed)
  have inRange := (regular.slabs _ listed).inRange slot List.mem_cons_self
  have address : (view.serve size).1 = size.slotAddress view.objectSize base slot := by
    rw [CacheView.serve, first]
  have place : diary.place size view.objectSize (view.serve size).1 =
      (diary.number base, slot) := by
    rw [Diary.place, address, regular.fits.pageOf_slotAddress aligned inRange,
      regular.fits.slotAt_slotAddress aligned inRange]
  refine ⟨⟨fun page mem => knows.held page (served.pages ▸ mem), ?_⟩, ?_⟩
  · rw [served.objects, ← knows.live, List.reduceOption_append, ← Multiset.coe_add, add_comm]
    rfl
  · rw [NumberedCache.serve, numbered, CacheView.numbered_serve first]
    dsimp only
    rw [place, numbered, served.objectSize, List.map_append, List.map_singleton,
      Option.map_some]
    dsimp only
    have same : Diary.place size view.objectSize
        { diary with objects := diary.objects ++ [some (view.serve size).1] } =
      diary.place size view.objectSize := rfl
    rw [same, place]
    rfl

variable {model : PageModel size σ} {source source' : model.recorded.View} {view' : CacheView}

/-- Serving an object is what it is in numbers. -/
theorem alloc (sound : view.Sound size) (regular' : view'.Regular size)
    (run : (view.alloc size).Runs model.recorded source (.ok object, view') source') :
    ∃ calls, source'.2 = calls ++ source.2 ∧ PageCall.given calls = [] ∧
      ∀ after : Diary, after.obtained = PageCall.taken calls ++ diary.obtained →
        after.objects = diary.objects ++ [some object] →
        after.Knows size view' ∧ (diary.numbered size view).alloc size view.objectSize =
          ((after.numbered size view').turn (some (after.place size view'.objectSize object)) [],
            after.numbered size view') := by
  unfold CacheView.alloc at run
  rcases room : view.room with _ | ⟨⟨base, free⟩, rest⟩
  · rw [room] at run
    obtain ⟨answer, middle, ⟨_, calls⟩, run⟩ := run
    cases answer with
    | error error =>
      obtain ⟨same, _⟩ := run
      cases same
    | ok page =>
      obtain ⟨same, rfl⟩ := run
      simp only [Prod.mk.injEq, Except.ok.injEq] at same
      obtain ⟨rfl, rfl⟩ := same
      obtain ⟨slot, free, first, whole, _⟩ := CacheView.openSlab_front regular.fits room page
      have served : (view.openSlab size page).Served size _ _ :=
        CacheView.serve_served regular.fits first whole
      have nodup := regular'.nodup
      rw [served.pages] at nodup
      have fresh : page ∉ view.pages :=
        (Multiset.nodup_cons.1 (show (page ::ₘ view.pages).Nodup from nodup)).1
      have opened : (view.openSlab size page).Regular size := by
        refine regular.openSlab fresh ?_ ?_
        · exact regular'.aligned page (served.pages ▸ Multiset.mem_cons_self page view.pages)
        · exact regular'.nonzero page (served.pages ▸ Multiset.mem_cons_self page view.pages)
      obtain ⟨knows₁, prepared⟩ := knows.openSlab regular room fresh
      obtain ⟨knows₂, serves⟩ := knows₁.serve opened first served
      refine ⟨[.take (.ok page)], calls, rfl, ?_⟩
      rintro ⟨_, _, _, _⟩ rfl rfl
      refine ⟨⟨knows₂.held, knows₂.live⟩, ?_⟩
      rw [NumberedCache.alloc, prepared, serves, served.objectSize]
      rfl
  · rw [room] at run
    obtain ⟨same, rfl⟩ := run
    simp only [Prod.mk.injEq, Except.ok.injEq] at same
    obtain ⟨rfl, rfl⟩ := same
    have listed : SlabView.mk base free ∈ view.room := room ▸ List.mem_cons_self
    obtain ⟨slot, free, rfl⟩ := List.exists_cons_of_ne_nil (sound.free _ listed)
    have served := CacheView.serve_served regular.fits room (sound.slots _ listed)
    obtain ⟨knows₁, serves⟩ := knows.serve regular room served
    refine ⟨[], rfl, rfl, ?_⟩
    rintro ⟨_, _, _, _⟩ rfl rfl
    refine ⟨⟨knows₁.held, knows₁.live⟩, ?_⟩
    have prepared : (diary.numbered size view).prepared size view.objectSize =
        diary.numbered size view := by
      rw [NumberedCache.prepared, numbered, CacheView.numbered, room]
      rfl
    rw [NumberedCache.alloc, prepared, serves, served.objectSize]
    rfl

/-- Taking an object back is what it is in numbers. -/
theorem free (held : diary.objects[k]? = some (some object))
    (freed : view.Freed size {object} view')
    (run : (view.free size object).Runs model.recorded source view' source') :
    ∃ calls, source'.2 = calls ++ source.2 ∧ PageCall.taken calls = [] ∧
      (∀ page ∈ PageCall.given calls, page ∈ diary.obtained) ∧
      ∀ after : Diary, after.obtained = diary.obtained →
        after.objects = diary.objects.set k none →
        after.Knows size view' ∧ (diary.numbered size view).free size view.objectSize k =
          ((after.numbered size view').turn none ((PageCall.given calls).map after.number),
            after.numbered size view') := by
  have own := knows.mem_objects (List.mem_of_getElem? held)
  have below : ∀ page ∈ view'.pages, page ∈ diary.obtained :=
    fun page mem => knows.held page (Multiset.mem_of_le freed.pages mem)
  have live : ((diary.objects.set k none).reduceOption : Multiset UInt64) = view'.objects size := by
    have live := knows.live
    rw [coe_reduceOption held, freed.objects, Multiset.singleton_add] at live
    exact (Multiset.cons_inj_right object).1 live
  have served : (diary.numbered size view).objects[k]? =
      some (some (diary.place size view.objectSize object)) := by
    rw [numbered, List.getElem?_map, held]
    rfl
  have objects : (diary.numbered size view).objects.set k none =
      (diary.objects.set k none).map (Option.map (diary.place size view'.objectSize)) := by
    rw [numbered, List.map_set, freed.objectSize]
    rfl
  -- the same in both cases, whether the page is given back or not
  have counted (released : List UInt64) (slabs : (view.numbered diary.number).free size
        view.objectSize (diary.number (size.pageOf object), size.slotAt view.objectSize object) =
      (released.map diary.number, view'.numbered diary.number)) (after : Diary)
      (obtained : after.obtained = diary.obtained)
      (kept : after.objects = diary.objects.set k none) :
      after.Knows size view' ∧ (diary.numbered size view).free size view.objectSize k =
        ((after.numbered size view').turn none (released.map after.number),
          after.numbered size view') := by
    obtain ⟨_, _, _, _⟩ := after
    cases obtained
    cases kept
    refine ⟨⟨below, live⟩, ?_⟩
    rw [NumberedCache.free, served]
    dsimp only
    rw [objects]
    dsimp only [numbered, Diary.place]
    rw [slabs]
    rfl
  have free := CacheView.numbered_free knows.number_injOn_pages regular own
  unfold CacheView.free at run
  dsimp only at run
  split at run
  · rename_i gone
    obtain ⟨middle, ⟨_, calls⟩, rfl, rfl⟩ := run
    refine ⟨[.give (size.pageOf object)], calls, rfl, fun other mem => ?_,
      counted [size.pageOf object] (free.trans (if_pos gone))⟩
    rw [List.mem_singleton.1 mem]
    exact knows.held _ (regular.pageOf_mem own)
  · rename_i kept
    obtain ⟨rfl, rfl⟩ := run
    exact ⟨[], rfl, rfl, fun _ mem => absurd mem List.not_mem_nil,
      counted [] (free.trans (if_neg kept))⟩

end Knows

namespace Tells

variable {objectSize : UInt64} {model : PageModel size σ} {source source' : model.recorded.View}
  {view' : CacheView} {group group' : CacheGroup (Recorded σ) count} {i : Fin count}

/-- A cache without a slab. -/
theorem fresh (size : PageSize) (objectSize : UInt64) :
    ({} : Diary).Tells size objectSize { objectSize } :=
  ⟨rfl, ⟨fun _ mem => absurd mem (Multiset.notMem_zero _), rfl⟩, fun _ => rfl⟩

omit [PageSource σ] in
/-- What is noted of a call that made some calls to the page source. -/
theorem note_eq (size : PageSize) (diary : Diary) (i : Fin count) (call : CacheCall)
    (object? : Option UInt64) {calls : List PageCall}
    (later : group'.heap.source.calls = calls ++ group.heap.source.calls) :
    (diary.note size i group group' call object?).obtained =
        PageCall.taken calls ++ diary.obtained ∧
      (diary.note size i group group' call object?).refusals =
        PageCall.refused calls ++ diary.refusals ∧
      (diary.note size i group group' call object?).log =
        (call, .of size (diary.note size i group group' call object?).obtained
          (group'.caches.get i).stats group'.heap.memory object? (PageCall.given calls)) ::
            diary.log := by
  have new : group'.heap.source.calls.take
      (group'.heap.source.calls.length - group.heap.source.calls.length) = calls := by
    simp [later]
  rw [note, new]
  exact ⟨rfl, rfl, rfl⟩

variable (tells : diary.Tells size objectSize view)

include tells

/-- A step that is what it is in numbers. -/
theorem step {diary' : Diary} {call : CacheCall} {turn : Turn} {refusals : List AllocError}
    (sizes : view'.objectSize = view.objectSize) (knows : diary'.Knows size view')
    (refused : diary'.refusals = refusals ++ diary.refusals)
    (logged : diary'.log = (call, turn) :: diary.log)
    (stepped : (diary.numbered size view).step size view.objectSize call =
      (turn, diary'.numbered size view')) : diary'.Tells size objectSize view' := by
  refine ⟨sizes.trans tells.sizes, knows, fun granted => ?_⟩
  have earlier := tells.replayed (List.append_eq_nil_iff.1 (refused.symm.trans granted)).2
  rw [calls, turns, logged, List.map_cons, List.map_cons, NumberedCache.replay]
  dsimp only
  rw [← calls, earlier]
  dsimp only
  rw [← tells.sizes, stepped]
  rfl

variable (regular : view.Regular size) (regular' : view'.Regular size)
  (described : view'.Describes size (group'.caches.get i) group'.heap.memory)
  (before : group.heap.source.calls = source.2) (after : group'.heap.source.calls = source'.2)

include regular regular' before after described

theorem alloc {answer : Except AllocError UInt64} (sound : view.Sound size)
    (allocated : view.Allocated size answer view')
    (run : (view.alloc size).Runs model.recorded source (answer, view') source') :
    (diary.note size i group group' .alloc answer.toOption).Tells size objectSize view' := by
  cases answer with
  | error error =>
    obtain rfl := allocated.refused error rfl
    have later : group'.heap.source.calls = [.take (.error error)] ++ group.heap.source.calls := by
      rw [before, after]
      exact CacheView.calls_of_refused run
    obtain ⟨obtained, refusals, _⟩ := note_eq size diary i .alloc none later
    refine ⟨tells.sizes, ⟨fun page mem => ?_, ?_⟩, fun granted => ?_⟩
    · exact obtained ▸ tells.knows.held page mem
    · show ((diary.objects ++ []).reduceOption : Multiset UInt64) = _
      rw [List.append_nil]
      exact tells.knows.live
    · cases refusals.symm.trans granted
  | ok object =>
    obtain ⟨calls, later, given, noted⟩ := tells.knows.alloc regular sound regular' run
    rw [← before, ← after] at later
    obtain ⟨obtained, refusals, logged⟩ := note_eq size diary i .alloc (some object) later
    obtain ⟨knows, served⟩ := noted _ obtained rfl
    have own : object ∈ view'.objects size := by
      rw [allocated.objects]
      exact Multiset.mem_add.2 (.inl (Multiset.mem_singleton_self object))
    have seen : Turn.of size _ _ _ (some object) [] = _ := knows.turn_eq regular' described
      (fun other same => Option.some.inj same ▸ own) nofun
    rw [given, seen] at logged
    exact tells.step allocated.objectSize knows refusals logged served

theorem free (held : diary.objects[k]? = some (some object))
    (freed : view.Freed size {object} view')
    (run : (view.free size object).Runs model.recorded source view' source') :
    (diary.note size i group group' (.free k) none).Tells size objectSize view' := by
  obtain ⟨calls, later, taken, known, noted⟩ := tells.knows.free regular held freed run
  rw [← before, ← after] at later
  obtain ⟨obtained, refusals, logged⟩ := note_eq size diary i (.free k) none later
  rw [taken, List.nil_append] at obtained
  obtain ⟨knows, done⟩ := noted _ obtained rfl
  have seen : Turn.of size _ _ _ none _ = _ := knows.turn_eq regular' described nofun
    fun page mem => obtained ▸ known page mem
  rw [seen] at logged
  exact tells.step freed.objectSize knows refusals logged done

end Tells

end Diary

/-! ## Two sessions -/

namespace CacheGroup.Session

variable {model : PageModel size σ} {sizes : Fin count → UInt64}
  {group : CacheGroup (Recorded σ) count} {diaries : Fin count → Diary}

/-- One of the caches changed, and its diary with it. -/
theorem tells_update {views : Fin count → CacheView} {i : Fin count} {diary : Diary}
    {cacheView : CacheView} (tells : ∀ j, (diaries j).Tells size (sizes j) (views j))
    (own : diary.Tells size (sizes i) cacheView) (j : Fin count) :
    (Function.update diaries i diary j).Tells size (sizes j)
      (Function.update views i cacheView j) := by
  by_cases same : j = i
  · subst same
    rw [Function.update_self, Function.update_self]
    exact own
  · rw [Function.update_of_ne same, Function.update_of_ne same]
    exact tells j

/-- A cache that changed is regular and described again. -/
theorem operated {views : Fin count → CacheView} {i : Fin count} {cacheView : CacheView}
    {source : model.recorded.View} (fits : ∀ i, size.Fits (views i).objectSize)
    (kept : cacheView.objectSize = (views i).objectSize)
    (houses : model.recorded.Houses source (Function.update views i cacheView) group) :
    cacheView.Regular size ∧
      cacheView.Describes size (group.caches.get i) group.heap.memory := by
  have fits' (j : Fin count) : size.Fits (Function.update views i cacheView j).objectSize := by
    by_cases same : j = i
    · subst same
      rw [Function.update_self, kept]
      exact fits j
    · rw [Function.update_of_ne same]
      exact fits j
  have regular := houses.regular fits' i
  have described := houses.describes i
  rw [Function.update_self] at regular described
  exact ⟨regular, described⟩

/-- The diaries tell what the caches did. -/
theorem exists_views (fits : ∀ i, size.Fits (sizes i))
    (session : Session model sizes group diaries) :
    ∃ (views : Fin count → CacheView) (source : model.recorded.View),
      model.recorded.Houses source views group ∧
        ∀ i, (diaries i).Tells size (sizes i) (views i) := by
  induction session with
  | @start heap source known none =>
    have known : model.recorded.Describes (source, []) 0 heap.source heap.memory :=
      ⟨known, none, trivial, fun page => by simp [PageCall.HandedOut]⟩
    exact ⟨_, _, .fresh known, fun i => .fresh size (sizes i)⟩
  | shift _ shifts ih =>
    obtain ⟨views, source, houses, tells⟩ := ih
    have fits i : size.Fits (views i).objectSize := (tells i).sizes ▸ fits i
    obtain ⟨known, calls⟩ := houses.source
    obtain ⟨⟨source', known'⟩, same⟩ := shifts source.1 _ known
    exact ⟨views, (source', source.2), houses.congr_source fits ⟨known', calls⟩ same, tells⟩
  | write _ mem inside ih =>
    obtain ⟨views, source, houses, tells⟩ := ih
    have fits i : size.Fits (views i).objectSize := (tells i).sizes ▸ fits i
    rw [← (tells _).sizes] at inside
    exact ⟨views, source, houses.write fits ((tells _).knows.mem_objects mem) inside, tells⟩
  | @alloc group group' diaries i answer _ ends ih =>
    obtain ⟨views, source, houses, tells⟩ := ih
    have fits i : size.Fits (views i).objectSize := (tells i).sizes ▸ fits i
    obtain ⟨_, cacheView, _, source', ends', run, allocated, houses'⟩ := houses.alloc_served fits i
    rw [ends] at ends'
    cases ends'
    obtain ⟨regular, described⟩ := operated fits allocated.objectSize houses'
    exact ⟨_, source', houses', tells_update tells ((tells i).alloc (houses.regular fits i) regular
      described houses.source.2.1 houses'.source.2.1 (houses.sound i) allocated run)⟩
  | @free group group' diaries i k object _ held ends ih =>
    obtain ⟨views, source, houses, tells⟩ := ih
    have fits i : size.Fits (views i).objectSize := (tells i).sizes ▸ fits i
    have own := (tells i).knows.mem_objects (List.mem_of_getElem? held)
    obtain ⟨cacheView, _, source', ends', run, freed, houses'⟩ := houses.free_freed fits own
    rw [ends] at ends'
    cases ends'
    obtain ⟨regular, described⟩ := operated fits freed.objectSize houses'
    exact ⟨_, source', houses', tells_update tells ((tells i).free (houses.regular fits i) regular
      described houses.source.2.1 houses'.source.2.1 held freed run)⟩

/-- No session gets stuck. -/
theorem answers (fits : ∀ i, size.Fits (sizes i)) (session : Session model sizes group diaries)
    (i : Fin count) : group.Answers size i (diaries i) := by
  obtain ⟨views, source, houses, tells⟩ := session.exists_views fits
  have fits i : size.Fits (views i).objectSize := (tells i).sizes ▸ fits i
  constructor
  · obtain ⟨answer, _, group', _, ends, _⟩ := houses.alloc_served fits i
    exact ⟨answer, group', ends⟩
  · intro k object held
    have own := (tells i).knows.mem_objects (List.mem_of_getElem? held)
    obtain ⟨_, group', _, ends, _⟩ := houses.free_freed fits own
    exact ⟨group', ends⟩

/-- **Caches do not notice each other.**  Take two sessions, over any page sources and with any
other caches, other calls and another order of calls.  A cache in the one and a cache in the
other, for objects of the same size, that are asked for the same do the same, as long as
no object is refused to them: after each call they tell the same about themselves, the object
that is served is in the same slot of the page with the same number, the same page is in front,
and the same pages are given back.  Neither of the caches gets stuck. -/
theorem turns_eq {σ' : Type} [PageSource σ'] {count' : Nat} {model' : PageModel size σ'}
    {sizes' : Fin count' → UInt64} {group' : CacheGroup (Recorded σ') count'}
    {diaries' : Fin count' → Diary} (fits : ∀ i, size.Fits (sizes i))
    (fits' : ∀ i, size.Fits (sizes' i)) (session : Session model sizes group diaries)
    (session' : Session model' sizes' group' diaries') {i : Fin count} {i' : Fin count'}
    (same : sizes i = sizes' i') (calls : (diaries i).calls = (diaries' i').calls)
    (granted : (diaries i).Granted) (granted' : (diaries' i').Granted) :
    (diaries i).turns = (diaries' i').turns ∧ (∀ turn ∈ (diaries i).turns, turn.Numbered) ∧
      group.Answers size i (diaries i) ∧ group'.Answers size i' (diaries' i') := by
  obtain ⟨views, _, _, tells⟩ := session.exists_views fits
  obtain ⟨views', _, _, tells'⟩ := session'.exists_views fits'
  have replayed := (tells i).replayed granted
  have replayed' := (tells' i').replayed granted'
  rw [← same, ← calls, replayed] at replayed'
  have numbered := NumberedCache.numbered_replay size (sizes i) (diaries i).calls
  rw [replayed] at numbered
  exact ⟨congrArg Prod.fst replayed', numbered, session.answers fits i,
    session'.answers fits' i'⟩

/-- Two caches in turns, and one of them alone.  The last page that it obtains is another one
each time. -/
theorem turns_eq_alone :
    ∃ (wide : 8 ≤ PageSize.default.length)
      (group : CacheGroup (Recorded (MeteredPool PageSize.default)) 2)
      (group' : CacheGroup (Recorded (MeteredPool PageSize.default)) 1)
      (diaries : Fin 2 → Diary) (diaries' : Fin 1 → Diary),
      Session (MeteredPool.model wide) (fun i => if i = 0 then 2000 else 112) group diaries ∧
      Session (MeteredPool.model wide) (fun _ => 2000) group' diaries' ∧
      (diaries 0).calls = [.alloc, .free 2, .alloc, .alloc, .alloc] ∧
      (diaries 0).obtained = [0x11000, 0x13000, 0x12000] ∧
      (diaries' 0).obtained = [0x12000, 0x12000, 0x11000] ∧
      (diaries 0).turns = (diaries' 0).turns := by
  have fits : PageSize.default.Fits 2000 := ⟨by decide, by decide +kernel⟩
  have fits' : PageSize.default.Fits 112 := ⟨by decide, by decide +kernel⟩
  let empty : Heap (MeteredPool PageSize.default) := { source := {} }
  have known : ({} : PoolView).Describes 0 empty.source empty.memory := .fresh {}
  have fresh : ∀ page ∈ (Extent.mk 0x10010 0x4000).pages PageSize.default,
      page ∉ ({} : PoolView).added := fun _ _ => Multiset.notMem_zero _
  obtain ⟨heap, added, described, _⟩ := HeapM.addMemory_adds known fresh
  let calls : List (Fin 2 × CacheCall) := [(1, .alloc), (0, .alloc), (0, .alloc), (0, .alloc),
    (1, .free 0), (0, .free 2), (1, .alloc), (0, .alloc)]
  let calls' : List (Fin 1 × CacheCall) :=
    [(0, .alloc), (0, .alloc), (0, .alloc), (0, .free 2), (0, .alloc)]
  let look (diary : Diary) : List CacheCall × List AllocError × List UInt64 :=
    (diary.calls, diary.refusals, diary.obtained)
  have tested : (do
      let _ ← HeapM.addMemory 0x10010 0x4000
      let heap ← get
      return decide ((CacheGroup.play PageSize.default calls
          (recording (fun i => if i = 0 then 2000 else 112) heap, fun _ => {})).map
            (fun state => look (state.2 0)) =
          some ([.alloc, .free 2, .alloc, .alloc, .alloc], [], [0x11000, 0x13000, 0x12000]) ∧
        (CacheGroup.play PageSize.default calls' (recording (fun _ => 2000) heap, fun _ => {})).map
            (fun state => look (state.2 0)) =
          some ([.alloc, .free 2, .alloc, .alloc, .alloc], [], [0x12000, 0x12000, 0x11000])) :
        HeapM (MeteredPool PageSize.default) Bool).run' empty = some true := by
    decide +kernel
  rw [run'_ok ((bind_ok added).trans (bind_ok get_ok))] at tested
  obtain ⟨played, played'⟩ := of_decide_eq_true (Option.some.inj tested)
  obtain ⟨⟨group, diaries⟩, played, seen⟩ := Option.map_eq_some_iff.1 played
  obtain ⟨⟨group', diaries'⟩, played', seen'⟩ := Option.map_eq_some_iff.1 played'
  simp only [look, Prod.mk.injEq] at seen seen'
  have begins {count : Nat} (sizes : Fin count → UInt64) :
      Session (MeteredPool.model fits.wide) sizes (recording sizes heap) fun _ => {} :=
    .start described rfl
  have session := (begins _).of_play played
  have session' := (begins _).of_play played'
  have sizes (i : Fin 2) : PageSize.default.Fits (if i = 0 then 2000 else 112) := by
    split
    · exact fits
    · exact fits'
  refine ⟨fits.wide, group, group', diaries, diaries', session, session', seen.1, seen.2.2,
    seen'.2.2, ?_⟩
  have told : (diaries 0).turns = (diaries' 0).turns ∧ _ :=
    session.turns_eq sizes (fun _ => fits) session' rfl (seen.1.trans seen'.1.symm) seen.2.1
      seen'.2.1
  exact told.1

end CacheGroup.Session

end SlabHeap
