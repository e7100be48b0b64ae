import SlabHeap.Proofs.PageCalls

/-!
# Caches with numbered pages

A cache does not care which pages it is given.  It tells them apart, and that is all.  So the
pages can be numbered in the order in which the cache obtained them (`pageNumber?`), and what
the cache does can be told in numbers.

`NumberedCache` is a cache that has numbers for pages and is alone in the world: it obtains
pages 0, 1, 2 and so on.  `NumberedCache.replay` lets it serve a list of calls.  Serving and
freeing of an abstract cache come to the same thing in numbers, if different pages have
different numbers (`CacheView.numbered_serve`, `CacheView.numbered_free`).
-/

namespace SlabHeap

/-! ## Numbers of pages -/

/-- The number under which a page was obtained last.  The pages obtained so far are listed with
the latest first. -/
def pageNumber? : List UInt64 → UInt64 → Option Nat
  | [], _ => none
  | page :: earlier, sought =>
    if page = sought then some earlier.length else pageNumber? earlier sought

section

variable {obtained : List UInt64} {page page' : UInt64} {number : Nat}

theorem pageNumber?_lt (h : pageNumber? obtained page = some number) :
    number < obtained.length := by
  induction obtained with
  | nil => cases h
  | cons first earlier ih =>
    rw [pageNumber?] at h
    split at h
    · cases h
      exact Nat.lt_succ_self _
    · exact Nat.lt_succ_of_lt (ih h)

/-- Different pages have different numbers. -/
theorem pageNumber?_inj (h : pageNumber? obtained page = some number)
    (h' : pageNumber? obtained page' = some number) : page = page' := by
  induction obtained with
  | nil => cases h
  | cons first earlier ih =>
    rw [pageNumber?] at h h'
    split at h <;> split at h'
    · rename_i same same'
      exact same.symm.trans same'
    · cases h
      exact absurd (pageNumber?_lt h') (Nat.lt_irrefl _)
    · cases h'
      exact absurd (pageNumber?_lt h) (Nat.lt_irrefl _)
    · exact ih h h'

theorem exists_pageNumber? (mem : page ∈ obtained) :
    ∃ number, pageNumber? obtained page = some number := by
  induction obtained with
  | nil => cases mem
  | cons first earlier ih =>
    rw [pageNumber?]
    split
    · exact ⟨_, rfl⟩
    · rename_i differ
      exact ih ((List.mem_cons.1 mem).resolve_left (Ne.symm differ))

end

/-! ## What a cache is asked for, and what it does -/

/-- What a cache is asked for. -/
inductive CacheCall where
  /-- An object. -/
  | alloc
  /-- To take back the object that was served so many objects after the first one. -/
  | free (object : Nat)
  deriving DecidableEq

/-- What can be seen of a cache after a call, with numbers for the pages. -/
structure Turn where
  /-- The number of pages held. -/
  pages : UInt64
  /-- The number of live objects. -/
  live : UInt64
  /-- The number of slabs with a free slot. -/
  partialSlabs : UInt64
  /-- The page of the slab that serves the next object, if there is one. -/
  front : Option (Option Nat)
  /-- The page and the slot of the object that was served, if one was. -/
  served : Option (Option Nat × Option UInt64)
  /-- The pages that were given back. -/
  released : List (Option Nat)
  deriving DecidableEq

/-- All pages have a number, and an object has a slot. -/
structure Turn.Numbered (turn : Turn) : Prop where
  front : turn.front ≠ some none
  served : ∀ place ∈ turn.served, place.1.isSome ∧ place.2.isSome
  released : none ∉ turn.released

/-! ## Slabs with numbered pages -/

/-- The number of a page and the stack of its free slots. -/
structure NumberedSlab where
  /-- The number of the page. -/
  number : Nat
  /-- The free slots, the next to be handed out in front. -/
  free : List UInt64
  deriving DecidableEq

/-- The slabs of a cache. -/
structure NumberedSlabs where
  /-- The slabs with a free slot, the one that serves the next object in front. -/
  room : List NumberedSlab := []
  /-- The full slabs. -/
  full : List Nat := []
  deriving DecidableEq

namespace NumberedSlabs

/-- Open a page as a slab in front. -/
def openSlab (size : PageSize) (objectSize : UInt64) (slabs : NumberedSlabs) (number : Nat) :
    NumberedSlabs :=
  { slabs with room := ⟨number, size.allSlots objectSize⟩ :: slabs.room }

/-- Put the slab in front with the full ones if no slot of it is free. -/
def retire (slabs : NumberedSlabs) : NumberedSlabs :=
  match slabs.room with
  | ⟨number, []⟩ :: rest => { room := rest, full := number :: slabs.full }
  | _ => slabs

/-- Hand out the top slot of the slab in front. -/
def serve? (slabs : NumberedSlabs) : Option ((Nat × UInt64) × NumberedSlabs) :=
  match slabs.room with
  | ⟨number, slot :: free⟩ :: rest =>
    some ((number, slot), { slabs with room := ⟨number, free⟩ :: rest }.retire)
  | _ => none

/-- Bring a full slab back to the front. -/
def reopen (slabs : NumberedSlabs) (number : Nat) : NumberedSlabs :=
  if number ∈ slabs.full then
    { room := ⟨number, []⟩ :: slabs.room, full := slabs.full.erase number }
  else slabs

/-- Push a slot on the stack of its slab. -/
def push (slabs : NumberedSlabs) (number : Nat) (slot : UInt64) : NumberedSlabs :=
  { slabs with
    room := slabs.room.map fun slab =>
      if slab.number = number then ⟨number, slot :: slab.free⟩ else slab }

/-- Take a slab off the list. -/
def drop (slabs : NumberedSlabs) (number : Nat) : NumberedSlabs :=
  { slabs with room := slabs.room.filter (·.number ≠ number) }

/-- Whether all slots of a listed slab are free. -/
def Emptied (size : PageSize) (objectSize : UInt64) (slabs : NumberedSlabs) (number : Nat) :
    Prop :=
  ∃ slab ∈ slabs.room, slab.number = number ∧ slab.free.length = size.slots objectSize

instance (size : PageSize) (objectSize : UInt64) (slabs : NumberedSlabs) (number : Nat) :
    Decidable (slabs.Emptied size objectSize number) :=
  inferInstanceAs (Decidable (∃ slab ∈ slabs.room, _))

/-- Put back the object at a page and a slot, and give back the page of a slab that became
empty. -/
def free (size : PageSize) (objectSize : UInt64) (slabs : NumberedSlabs) (place : Nat × UInt64) :
    List Nat × NumberedSlabs :=
  let returned := (slabs.reopen place.1).push place.1 place.2
  if returned.Emptied size objectSize place.1 then ([place.1], returned.drop place.1)
  else ([], returned)

end NumberedSlabs

/-! ## The cache that is alone -/

/-- A cache that obtains the pages 0, 1, 2 and so on. -/
structure NumberedCache where
  /-- The number of pages obtained so far. -/
  obtained : Nat := 0
  /-- The slabs. -/
  slabs : NumberedSlabs := {}
  /-- The page and the slot of each object served, and nothing for those taken back. -/
  objects : List (Option (Nat × UInt64)) := []
  deriving DecidableEq

namespace NumberedCache

/-- What can be seen of the cache. -/
def turn (cache : NumberedCache) (served : Option (Nat × UInt64)) (released : List Nat) : Turn where
  pages := UInt64.ofNat (cache.slabs.room.length + cache.slabs.full.length)
  live := UInt64.ofNat cache.objects.reduceOption.length
  partialSlabs := UInt64.ofNat cache.slabs.room.length
  front := cache.slabs.room.head?.map fun slab => some slab.number
  served := served.map fun place => (some place.1, some place.2)
  released := released.map some

/-- A page is obtained if no slab has room. -/
def prepared (size : PageSize) (objectSize : UInt64) (cache : NumberedCache) : NumberedCache :=
  match cache.slabs.room with
  | [] => { cache with
      obtained := cache.obtained + 1
      slabs := cache.slabs.openSlab size objectSize cache.obtained }
  | _ :: _ => cache

/-- Hand out the top slot of the slab in front. -/
def serve (cache : NumberedCache) : Turn × NumberedCache :=
  match cache.slabs.serve? with
  | some (place, slabs) =>
    let after := { cache with slabs, objects := cache.objects ++ [some place] }
    (after.turn (some place) [], after)
  | none => (cache.turn none [], cache)

/-- Serve an object, from a fresh page if no slab has room. -/
def alloc (size : PageSize) (objectSize : UInt64) (cache : NumberedCache) : Turn × NumberedCache :=
  (cache.prepared size objectSize).serve

/-- Take back an object. -/
def free (size : PageSize) (objectSize : UInt64) (object : Nat) (cache : NumberedCache) :
    Turn × NumberedCache :=
  match cache.objects[object]? with
  | some (some place) =>
    let freed := cache.slabs.free size objectSize place
    let after := { cache with slabs := freed.2, objects := cache.objects.set object none }
    (after.turn none freed.1, after)
  | _ => (cache.turn none [], cache)

/-- Do what is asked for. -/
def step (size : PageSize) (objectSize : UInt64) : CacheCall → NumberedCache → Turn × NumberedCache
  | .alloc, cache => cache.alloc size objectSize
  | .free object, cache => cache.free size objectSize object

/-- Serve calls one after another, the latest of which comes first. -/
def replay (size : PageSize) (objectSize : UInt64) : List CacheCall → List Turn × NumberedCache
  | [] => ([], {})
  | call :: earlier =>
    let before := replay size objectSize earlier
    let after := before.2.step size objectSize call
    (after.1 :: before.1, after.2)

theorem numbered_turn (cache : NumberedCache) (served : Option (Nat × UInt64))
    (released : List Nat) : (cache.turn served released).Numbered := by
  refine ⟨?_, ?_, ?_⟩
  · cases room : cache.slabs.room <;> simp [turn, room]
  · cases served <;> simp [turn]
  · simp [turn]

theorem numbered_step (size : PageSize) (objectSize : UInt64) (call : CacheCall)
    (cache : NumberedCache) : (cache.step size objectSize call).1.Numbered := by
  cases call with
  | alloc =>
    rw [step, alloc, serve]
    split <;> exact numbered_turn _ _ _
  | free object =>
    rw [step, free]
    split <;> exact numbered_turn _ _ _

theorem numbered_replay (size : PageSize) (objectSize : UInt64) (calls : List CacheCall) :
    ∀ turn ∈ (replay size objectSize calls).1, turn.Numbered := by
  induction calls with
  | nil => nofun
  | cons call earlier ih =>
    intro turn mem
    rcases List.mem_cons.1 mem with rfl | mem
    · exact numbered_step size objectSize call _
    · exact ih turn mem

end NumberedCache

/-! ## Abstract caches in numbers -/

/-- An element is erased in the image, if nothing else has the same image. -/
theorem map_erase_of_inj {α β : Type} [DecidableEq α] [DecidableEq β] {f : α → β} {a : α}
    {elements : List α} (inj : ∀ b ∈ elements, f b = f a → b = a) :
    (elements.erase a).map f = (elements.map f).erase (f a) := by
  induction elements with
  | nil => rfl
  | cons b rest ih =>
    have later := ih fun c mem => inj c (.tail _ mem)
    by_cases same : b = a
    · subst same
      rw [List.erase_cons_head, List.map_cons, List.erase_cons_head]
    · have differ : f b ≠ f a := fun eq => same (inj b List.mem_cons_self eq)
      rw [List.erase_cons_tail (beq_false_of_ne same ▸ Bool.false_ne_true), List.map_cons,
        List.map_cons, List.erase_cons_tail (beq_false_of_ne differ ▸ Bool.false_ne_true), later]

/-- The slab with the number of its page. -/
def SlabView.numbered (number : UInt64 → Nat) (slab : SlabView) : NumberedSlab :=
  ⟨number slab.base, slab.free⟩

namespace CacheView

variable {size : PageSize} {view : CacheView} {number number' : UInt64 → Nat} {base slot : UInt64}
  {free : List UInt64} {rest : List SlabView}

/-- The slabs of the cache with the numbers of their pages. -/
def numbered (number : UInt64 → Nat) (view : CacheView) : NumberedSlabs where
  room := view.room.map (SlabView.numbered number)
  full := view.full.map number

theorem base_mem_pages {slab : SlabView} (mem : slab ∈ view.room) : slab.base ∈ view.pages :=
  mem_pages (List.mem_append_left _ mem)

theorem full_mem_pages (mem : base ∈ view.full) : base ∈ view.pages :=
  have held : ⟨base, []⟩ ∈ view.slabs := List.mem_append_right _ (List.mem_map_of_mem mem)
  mem_pages held

/-- Only the numbers of the pages held matter. -/
theorem numbered_congr (same : ∀ page ∈ view.pages, number' page = number page) :
    view.numbered number' = view.numbered number := by
  have room : view.room.map (SlabView.numbered number') =
      view.room.map (SlabView.numbered number) :=
    List.map_congr_left fun slab mem =>
      congrArg (NumberedSlab.mk · slab.free) (same _ (base_mem_pages mem))
  have full : view.full.map number' = view.full.map number :=
    List.map_congr_left fun base mem => same base (full_mem_pages mem)
  rw [numbered, numbered, room, full]

theorem numbered_openSlab (page : UInt64) : (view.openSlab size page).numbered number =
    (view.numbered number).openSlab size view.objectSize (number page) := rfl

theorem numbered_retire : view.retire.numbered number = (view.numbered number).retire := by
  rcases room : view.room with _ | ⟨⟨base, _ | ⟨slot, free⟩⟩, rest⟩ <;>
    simp [retire, NumberedSlabs.retire, numbered, room, SlabView.numbered]

/-- Serving in numbers. -/
theorem numbered_serve (first : view.room = ⟨base, slot :: free⟩ :: rest) :
    (view.numbered number).serve? =
      some ((number base, slot), (view.serve size).2.numbered number) := by
  have room : (view.numbered number).room =
      ⟨number base, slot :: free⟩ :: rest.map (SlabView.numbered number) := by
    rw [numbered, first]
    rfl
  rw [NumberedSlabs.serve?, room]
  dsimp only
  rw [serve, first]
  dsimp only
  rw [numbered_retire]
  rfl

variable (apart : Set.InjOn number {page | page ∈ view.pages}) (held : base ∈ view.pages)

include apart held

theorem number_eq_iff {slab : SlabView} (mem : slab ∈ view.room) :
    number slab.base = number base ↔ slab.base = base :=
  ⟨fun same => apart (base_mem_pages mem) held same, congrArg number⟩

theorem number_mem_full : number base ∈ (view.numbered number).full ↔ base ∈ view.full := by
  constructor
  · intro mem
    obtain ⟨other, full, same⟩ := List.mem_map.1 mem
    exact apart (full_mem_pages full) held same ▸ full
  · exact List.mem_map_of_mem

theorem numbered_reopen :
    (view.reopen base).numbered number = (view.numbered number).reopen (number base) := by
  have full := number_mem_full apart held
  unfold reopen NumberedSlabs.reopen
  by_cases mem : base ∈ view.full
  · have erased := map_erase_of_inj fun other (mem : other ∈ view.full) same =>
      apart (full_mem_pages mem) held same
    rw [if_pos mem, if_pos (full.2 mem), numbered, erased]
    rfl
  · rw [if_neg mem, if_neg fun mem' => mem (full.1 mem')]

theorem numbered_push :
    (view.push base slot).numbered number = (view.numbered number).push (number base) slot := by
  refine congrArg (NumberedSlabs.mk · _) ?_
  rw [push, numbered, List.map_map, List.map_map]
  refine List.map_congr_left fun slab mem => ?_
  by_cases same : slab.base = base
  · have number : number slab.base = number base := congrArg number same
    simp only [Function.comp, SlabView.numbered, same, if_true]
  · have differ := mt (number_eq_iff apart held mem).1 same
    simp only [Function.comp, SlabView.numbered, same, differ, if_false]

theorem numbered_drop :
    (view.drop base).numbered number = (view.numbered number).drop (number base) := by
  refine congrArg (NumberedSlabs.mk · _) ?_
  rw [drop, numbered, List.filter_map]
  refine congrArg (List.map _) (List.filter_congr fun slab mem => ?_)
  exact decide_eq_decide.2 (not_congr (number_eq_iff apart held mem)).symm

theorem emptied_numbered_iff : (view.numbered number).Emptied size view.objectSize (number base) ↔
    view.Emptied size base := by
  constructor
  · rintro ⟨_, mem, same, all⟩
    obtain ⟨slab, listed, rfl⟩ := List.mem_map.1 mem
    exact ⟨slab, listed, (number_eq_iff apart held listed).1 same, all⟩
  · rintro ⟨slab, listed, rfl, all⟩
    exact ⟨_, List.mem_map_of_mem listed, rfl, all⟩

omit held in
/-- Freeing in numbers. -/
theorem numbered_free {object : UInt64} (regular : view.Regular size)
    (own : object ∈ view.objects size) :
    (view.numbered number).free size view.objectSize
        (number (size.pageOf object), size.slotAt view.objectSize object) =
      if (view.returned size object).Emptied size (size.pageOf object) then
        ([number (size.pageOf object)],
          ((view.returned size object).drop (size.pageOf object)).numbered number)
      else ([], (view.returned size object).numbered number) := by
  obtain ⟨front, free, back, located⟩ := regular.exists_located own
  have held := regular.pageOf_mem own
  have reopened := Located.pages_reopen view (size.pageOf object)
  have pages := located.pages_returned regular
  have returned : ((view.numbered number).reopen (number (size.pageOf object))).push
        (number (size.pageOf object)) (size.slotAt view.objectSize object) =
      (view.returned size object).numbered number := by
    rw [CacheView.returned, numbered_push (reopened ▸ apart) (reopened ▸ held),
      numbered_reopen apart held]
  have emptied : ((view.returned size object).numbered number).Emptied size view.objectSize
      (number (size.pageOf object)) ↔
      (view.returned size object).Emptied size (size.pageOf object) := by
    rw [← Located.objectSize_returned]
    exact emptied_numbered_iff (pages ▸ apart) (pages ▸ held)
  rw [NumberedSlabs.free]
  dsimp only
  rw [returned, numbered_drop (pages ▸ apart) (pages ▸ held)]
  simp only [emptied]

end CacheView

end SlabHeap
