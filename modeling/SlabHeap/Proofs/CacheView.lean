import Mathlib.Algebra.BigOperators.Group.Multiset.Basic
import Mathlib.Tactic.Abel
import SlabHeap.Proofs.Plan
import SlabHeap.Proofs.SpaceLists

/-!
# Caches as lists of stacks

A `CacheView` is the abstract cache: the slabs with a free slot, the front first,
each with the stack of its free slots, and the pages of the full slabs.

`CacheView.alloc` opens a page if no slab has room, and pops the slot on top of
the front slab; a slab that became full leaves the list.  `CacheView.free` pushes
the slot on the stack of its slab; a full slab comes back to the front first, and
a slab all of whose slots are free is taken out and its page is given back.

The main statements are what both do to the objects of a cache: an object is
added (`objects_alloc`) or taken away (`objects_free`), and the slabs on the list
always have a free slot and an object (`CacheView.Sound`).
-/

namespace SlabHeap

/-- The bytes of an object. -/
structure Block where
  /-- The address of the object. -/
  address : UInt64
  /-- The size of the objects of its class. -/
  size : UInt64
  deriving DecidableEq, Repr

/-- The addresses of the bytes. -/
def Block.run (block : Block) : Set UInt64 := Memory.run block.address block.size.toNat

/-- The slabs of a cache. -/
structure CacheView where
  /-- The size of the objects. -/
  objectSize : UInt64
  /-- The slabs with a free slot, the one that serves the next object in front. -/
  room : List SlabView := []
  /-- The pages of the full slabs. -/
  full : List UInt64 := []
  deriving DecidableEq, Repr

namespace CacheView

/-! ## What a cache holds -/

/-- All slabs. -/
def slabs (view : CacheView) : List SlabView :=
  view.room ++ view.full.map fun base => ⟨base, []⟩

/-- The pages held as slabs. -/
def pages (view : CacheView) : Multiset UInt64 := view.slabs.map SlabView.base

/-- The addresses of the live objects. -/
def objects (size : PageSize) (view : CacheView) : Multiset UInt64 :=
  view.slabs.flatMap (SlabView.objects size view.objectSize)

/-- The live objects with their bytes. -/
def blocks (size : PageSize) (view : CacheView) : Multiset Block :=
  (view.objects size).map fun object => ⟨object, view.objectSize⟩

/-! ## Serving and freeing -/

/-- Open a page as a slab in front. -/
def openSlab (size : PageSize) (view : CacheView) (page : UInt64) : CacheView :=
  { view with room := .fresh size view.objectSize page :: view.room }

/-- Put the slab in front with the full ones if no slot of it is free. -/
def retire (view : CacheView) : CacheView :=
  match view.room with
  | ⟨base, []⟩ :: rest => { view with room := rest, full := base :: view.full }
  | _ => view

/-- Hand out the top slot of the slab in front. -/
def serve (size : PageSize) (view : CacheView) : UInt64 × CacheView :=
  match view.room with
  | ⟨base, slot :: free⟩ :: rest =>
    (size.slotAddress view.objectSize base slot,
      { view with room := ⟨base, free⟩ :: rest }.retire)
  | _ => (0, view)

/-- Serve an object, from a fresh page if no slab has room. -/
def alloc (size : PageSize) (view : CacheView) : Plan (Except AllocError UInt64 × CacheView) :=
  match view.room with
  | [] => .take fun
    | .error error => .done (.error error, view)
    | .ok page =>
      let served := (view.openSlab size page).serve size
      .done (.ok served.1, served.2)
  | _ :: _ =>
    let served := view.serve size
    .done (.ok served.1, served.2)

/-- Bring a full slab back to the front. -/
def reopen (view : CacheView) (base : UInt64) : CacheView :=
  if base ∈ view.full then
    { view with room := ⟨base, []⟩ :: view.room, full := view.full.erase base }
  else view

/-- Push a slot on the stack of its slab. -/
def push (view : CacheView) (base slot : UInt64) : CacheView :=
  { view with
    room := view.room.map fun slab =>
      if slab.base = base then ⟨base, slot :: slab.free⟩ else slab }

/-- Take a slab off the list. -/
def drop (view : CacheView) (base : UInt64) : CacheView :=
  { view with room := view.room.filter (·.base ≠ base) }

/-- Whether all slots of a listed slab are free. -/
def Emptied (size : PageSize) (view : CacheView) (base : UInt64) : Prop :=
  ∃ slab ∈ view.room, slab.base = base ∧ slab.free.length = size.slots view.objectSize

instance (size : PageSize) (view : CacheView) (base : UInt64) :
    Decidable (view.Emptied size base) :=
  inferInstanceAs (Decidable (∃ slab ∈ view.room, _))

/-- The cache with the slot at an address free again. -/
def returned (size : PageSize) (view : CacheView) (object : UInt64) : CacheView :=
  (view.reopen (size.pageOf object)).push (size.pageOf object)
    (size.slotAt view.objectSize object)

/-- Put back an object, and give back the page of a slab that became empty. -/
def free (size : PageSize) (view : CacheView) (object : UInt64) : Plan CacheView :=
  let view := view.returned size object
  if view.Emptied size (size.pageOf object) then
    .give (size.pageOf object) (.done (view.drop (size.pageOf object)))
  else .done view

/-! ## The slabs after each step -/

variable {size : PageSize} {view view' : CacheView} {slab slab' : SlabView}
  {rest front back : List SlabView} {base slot object : UInt64} {free : List UInt64}

theorem pages_congr (same : view.slabs.Perm view'.slabs) : view.pages = view'.pages :=
  Multiset.coe_eq_coe.2 (same.map _)

theorem pages_cons (split : view.slabs.Perm (slab :: rest)) :
    view.pages = slab.base ::ₘ (rest.map SlabView.base : Multiset UInt64) :=
  Multiset.coe_eq_coe.2 (split.map _)

theorem objects_cons (split : view.slabs.Perm (slab :: rest)) :
    view.objects size = (slab.objects size view.objectSize : Multiset UInt64) +
      (rest.flatMap (SlabView.objects size view.objectSize) : List UInt64) := by
  rw [objects, Multiset.coe_eq_coe.2 (split.flatMap_right _), List.flatMap_cons,
    Multiset.coe_add]

theorem slabs_openSlab (page : UInt64) :
    (view.openSlab size page).slabs = .fresh size view.objectSize page :: view.slabs := rfl

theorem objects_openSlab (page : UInt64) :
    (view.openSlab size page).objects size = view.objects size := by
  have sizes : (view.openSlab size page).objectSize = view.objectSize := rfl
  rw [objects_cons (List.Perm.of_eq (slabs_openSlab page)), sizes, SlabView.objects_fresh,
    Multiset.coe_nil, Multiset.zero_add, objects]

theorem slabs_retire : view.retire.slabs.Perm view.slabs := by
  unfold retire
  split
  · rename_i base rest room
    rw [slabs, slabs, room, List.map_cons]
    exact List.perm_middle
  · exact List.Perm.refl _

theorem retire_objectSize : view.retire.objectSize = view.objectSize := by
  unfold retire
  split <;> rfl

theorem slabs_reopen : (view.reopen base).slabs.Perm view.slabs := by
  unfold reopen
  split
  · rename_i mem
    rw [slabs, slabs, List.cons_append]
    refine List.perm_middle.symm.trans (List.Perm.append_left _ ?_)
    exact ((List.perm_cons_erase mem).map (SlabView.mk · [])).symm
  · exact List.Perm.refl _

theorem reopen_objectSize : (view.reopen base).objectSize = view.objectSize := by
  unfold reopen
  split <;> rfl

/-- The page of a listed slab is not that of a full one. -/
theorem notMem_full (nodup : view.pages.Nodup) (listed : slab ∈ view.room) :
    slab.base ∉ view.full := by
  intro full
  have bases : (view.room.map SlabView.base ++ view.full).Nodup := by
    have all : (view.slabs.map SlabView.base).Nodup := nodup
    simpa [slabs, Function.comp_def] using all
  exact (List.nodup_append.1 bases).2.2 _ (List.mem_map_of_mem listed) _ full rfl

/-- What stands at a page is reopened at a known place of the list. -/
theorem reopen_split (nodup : view.pages.Nodup) (mem : slab ∈ view.slabs) :
    ∃ front back, (view.reopen slab.base).room = front ++ slab :: back := by
  unfold reopen
  rcases List.mem_append.1 mem with listed | full
  · rw [if_neg (notMem_full nodup listed)]
    exact List.append_of_mem listed
  · obtain ⟨base, present, rfl⟩ := List.mem_map.1 full
    rw [if_pos present]
    exact ⟨[], view.room, rfl⟩

/-- On a list without repetition, pushing a slot changes one slab. -/
theorem room_push (nodup : view.pages.Nodup) (split : view.room = front ++ ⟨base, free⟩ :: back)
    (slot : UInt64) : (view.push base slot).room = front ++ ⟨base, slot :: free⟩ :: back := by
  have bases : (view.slabs.map SlabView.base).Nodup := nodup
  rw [slabs, split, List.append_assoc, List.map_append, List.nodup_append] at bases
  obtain ⟨_, tail, apart⟩ := bases
  rw [List.cons_append, List.map_cons, List.nodup_cons] at tail
  have inFront : ∀ slab ∈ front, ¬ slab.base = base := fun slab mem =>
    apart _ (List.mem_map_of_mem mem) base List.mem_cons_self
  have inBack : ∀ slab ∈ back, ¬ slab.base = base := fun slab mem same =>
    tail.1 (List.mem_map.2 ⟨slab, List.mem_append_left _ mem, same⟩)
  have keep (others : List SlabView) (differ : ∀ slab ∈ others, ¬ slab.base = base) :
      others.map (fun slab => if slab.base = base then SlabView.mk base (slot :: slab.free)
        else slab) = others :=
    (List.map_congr_left fun slab mem => if_neg (differ slab mem)).trans (List.map_id others)
  simp only [push, split, List.map_append, List.map_cons, if_true, keep front inFront,
    keep back inBack]

/-- On a list without repetition, dropping a page takes one slab off. -/
theorem room_drop (nodup : view.pages.Nodup) (split : view.room = front ++ slab :: back) :
    (view.drop slab.base).room = front ++ back := by
  have bases : (view.slabs.map SlabView.base).Nodup := nodup
  rw [slabs, split, List.append_assoc, List.map_append, List.nodup_append] at bases
  obtain ⟨_, tail, apart⟩ := bases
  rw [List.cons_append, List.map_cons, List.nodup_cons] at tail
  have inFront : ∀ other ∈ front, other.base ≠ slab.base := fun other mem =>
    apart _ (List.mem_map_of_mem mem) slab.base List.mem_cons_self
  have inBack : ∀ other ∈ back, other.base ≠ slab.base := fun other mem same =>
    tail.1 (List.mem_map.2 ⟨other, List.mem_append_left _ mem, same⟩)
  have keep (others : List SlabView) (differ : ∀ other ∈ others, other.base ≠ slab.base) :
      others.filter (·.base ≠ slab.base) = others :=
    List.filter_eq_self.2 fun other mem => decide_eq_true (differ other mem)
  have gone : ¬ decide (slab.base ≠ slab.base) = true := by simp
  rw [drop, split, List.filter_append, List.filter_cons, if_neg gone, keep front inFront,
    keep back inBack]

/-- A slab of the list stands before all others. -/
theorem slabs_perm (split : view.room = front ++ slab :: back) :
    view.slabs.Perm (slab :: (front ++ back ++ view.full.map fun base => ⟨base, []⟩)) := by
  rw [slabs, split]
  exact List.Perm.append_right _ List.perm_middle

theorem slabs_front (front : view.room = slab :: rest) :
    view.slabs.Perm (slab :: (rest ++ view.full.map fun base => ⟨base, []⟩)) := by
  rw [slabs, front]
  exact List.Perm.refl _

/-! ## Regular caches -/

/-- The pages are pages, each once, and the stacks are stacks of slots. -/
structure Regular (size : PageSize) (view : CacheView) : Prop where
  fits : size.Fits view.objectSize
  slabs : ∀ slab ∈ view.slabs, slab.Sound size view.objectSize
  nodup : view.pages.Nodup
  aligned : ∀ page ∈ view.pages, size.Aligned page
  nonzero : ∀ page ∈ view.pages, page ≠ 0

theorem mem_pages (mem : slab ∈ view.slabs) : slab.base ∈ view.pages :=
  Multiset.mem_coe.2 (List.mem_map_of_mem mem)

namespace Regular

variable (regular : view.Regular size)

include regular

theorem congr (sizes : view'.objectSize = view.objectSize)
    (same : view'.slabs.Perm view.slabs) : view'.Regular size := by
  have pages := pages_congr same
  refine ⟨sizes ▸ regular.fits, ?_, pages ▸ regular.nodup, pages ▸ regular.aligned,
    pages ▸ regular.nonzero⟩
  intro slab mem
  rw [sizes]
  exact regular.slabs slab (same.mem_iff.1 mem)

/-- Another stack on a page keeps a cache regular. -/
theorem restack {free free' : List UInt64} (sizes : view'.objectSize = view.objectSize)
    (split : view.slabs.Perm (⟨base, free⟩ :: rest))
    (split' : view'.slabs.Perm (⟨base, free'⟩ :: rest))
    (sound : (SlabView.mk base free').Sound size view.objectSize) : view'.Regular size := by
  have pages : view'.pages = view.pages := by rw [pages_cons split, pages_cons split']
  refine ⟨sizes ▸ regular.fits, ?_, pages ▸ regular.nodup, pages ▸ regular.aligned,
    pages ▸ regular.nonzero⟩
  intro slab mem
  rw [sizes]
  rcases List.mem_cons.1 (split'.mem_iff.1 mem) with same | other
  · rw [same]
    exact sound
  · exact regular.slabs slab (split.mem_iff.2 (.tail _ other))

/-- Taking a slot of the slab in front keeps a cache regular, and its pages. -/
theorem take {free : List UInt64} (front : view.room = ⟨base, slot :: free⟩ :: rest) :
    ({ view with room := ⟨base, free⟩ :: rest } : CacheView).Regular size ∧
      ({ view with room := ⟨base, free⟩ :: rest } : CacheView).pages = view.pages := by
  have split := slabs_front front
  have split' : ({ view with room := ⟨base, free⟩ :: rest } : CacheView).slabs.Perm
      (⟨base, free⟩ :: (rest ++ view.full.map fun base => ⟨base, []⟩)) := slabs_front rfl
  have sound := regular.slabs _ (split.mem_iff.2 List.mem_cons_self)
  refine ⟨regular.restack rfl split split' sound.take, ?_⟩
  rw [pages_cons split, pages_cons split']

/-- Without one of its slabs, a cache is still regular. -/
theorem without (sizes : view'.objectSize = view.objectSize)
    (split : view.slabs.Perm (slab :: view'.slabs)) : view'.Regular size := by
  have pages : view.pages = slab.base ::ₘ view'.pages := pages_cons split
  have nodup := regular.nodup
  rw [pages, Multiset.nodup_cons] at nodup
  have mem {page : UInt64} (h : page ∈ view'.pages) : page ∈ view.pages := by
    rw [pages]
    exact Multiset.mem_cons_of_mem h
  refine ⟨sizes ▸ regular.fits, ?_, nodup.2, fun page h => regular.aligned page (mem h),
    fun page h => regular.nonzero page (mem h)⟩
  intro slab h
  rw [sizes]
  exact regular.slabs slab (split.mem_iff.2 (.tail _ h))

/-- A page that is not held yet can be opened. -/
theorem openSlab {page : UInt64} (fresh : page ∉ view.pages) (aligned : size.Aligned page)
    (nonzero : page ≠ 0) : (view.openSlab size page).Regular size := by
  have pages : (view.openSlab size page).pages = page ::ₘ view.pages := rfl
  refine ⟨regular.fits, ?_, ?_, ?_, ?_⟩
  · intro slab mem
    rcases List.mem_cons.1 mem with same | other
    · rw [same]
      exact .fresh regular.fits page
    · exact regular.slabs slab other
  · rw [pages, Multiset.nodup_cons]
    exact ⟨fresh, regular.nodup⟩
  · intro other mem
    rw [pages, Multiset.mem_cons] at mem
    rcases mem with rfl | mem
    · exact aligned
    · exact regular.aligned other mem
  · intro other mem
    rw [pages, Multiset.mem_cons] at mem
    rcases mem with rfl | mem
    · exact nonzero
    · exact regular.nonzero other mem

/-- A page has one slab. -/
theorem eq_of_base (mem : slab ∈ view.slabs) (mem' : slab' ∈ view.slabs)
    (same : slab.base = slab'.base) : slab = slab' :=
  List.inj_on_of_nodup_map (Multiset.coe_nodup.1 regular.nodup) mem mem' same

/-! ### The objects of a regular cache -/

theorem mem_objects : object ∈ view.objects size ↔
    ∃ slab ∈ view.slabs, ∃ slot, slot.toNat < size.slots view.objectSize ∧ slot ∉ slab.free ∧
      size.slotAddress view.objectSize slab.base slot = object := by
  rw [objects, Multiset.mem_coe, List.mem_flatMap]
  simp only [SlabView.mem_objects regular.fits]

/-- An object is in one of the pages. -/
theorem pageOf_mem (mem : object ∈ view.objects size) : size.pageOf object ∈ view.pages := by
  obtain ⟨slab, held, slot, inRange, _, rfl⟩ := regular.mem_objects.1 mem
  have aligned := regular.aligned _ (mem_pages held)
  rw [regular.fits.pageOf_slotAddress aligned inRange]
  exact mem_pages held

theorem object_ne_zero (mem : object ∈ view.objects size) : object ≠ 0 := by
  obtain ⟨slab, held, slot, inRange, _, rfl⟩ := regular.mem_objects.1 mem
  exact regular.fits.slotAddress_ne_zero (regular.aligned _ (mem_pages held)) inRange

/-- All bytes of an object are in its page, behind the header and the table. -/
theorem run_object_subset (mem : object ∈ view.objects size) :
    Memory.run object view.objectSize.toNat ⊆
      size.page (size.pageOf object) \ size.notes view.objectSize (size.pageOf object) := by
  obtain ⟨slab, held, slot, inRange, _, rfl⟩ := regular.mem_objects.1 mem
  have aligned := regular.aligned _ (mem_pages held)
  rw [regular.fits.pageOf_slotAddress aligned inRange]
  intro address inside
  exact ⟨regular.fits.slot_subset_page inRange inside, fun noted =>
    Set.disjoint_left.1 (regular.fits.disjoint_notes inRange) inside noted⟩

/-- Two objects have no byte in common. -/
theorem disjoint_objects {other : UInt64} (mem : object ∈ view.objects size)
    (mem' : other ∈ view.objects size) (differ : object ≠ other) :
    Disjoint (Memory.run object view.objectSize.toNat)
      (Memory.run other view.objectSize.toNat) := by
  by_cases same : size.pageOf object = size.pageOf other
  · obtain ⟨slab, held, slot, inRange, _, rfl⟩ := regular.mem_objects.1 mem
    obtain ⟨slab', held', slot', inRange', _, rfl⟩ := regular.mem_objects.1 mem'
    rw [regular.fits.pageOf_slotAddress (regular.aligned _ (mem_pages held)) inRange,
      regular.fits.pageOf_slotAddress (regular.aligned _ (mem_pages held')) inRange'] at same
    rw [same] at differ ⊢
    exact regular.fits.disjoint_slots _ inRange inRange' fun slots => differ (slots ▸ rfl)
  · have aligned := size.pageOf_aligned object
    have aligned' := size.pageOf_aligned other
    exact (aligned.disjoint_page aligned' same).mono
      ((regular.run_object_subset mem).trans Set.sdiff_subset)
      ((regular.run_object_subset mem').trans Set.sdiff_subset)

theorem nodup_objects : (view.objects size).Nodup := by
  have bases : (view.slabs.map SlabView.base).Nodup := regular.nodup
  have pairs : view.slabs.Pairwise fun a b => a.base ≠ b.base := List.pairwise_map.1 bases
  refine Multiset.coe_nodup.2 (List.nodup_flatMap.2 ⟨?_, ?_⟩)
  · intro slab held
    exact SlabView.nodup_objects regular.fits (regular.aligned _ (mem_pages held))
  · refine pairs.imp_of_mem ?_
    intro slab slab' held held' differ object mem mem'
    obtain ⟨slot, inRange, _, rfl⟩ := (SlabView.mem_objects regular.fits).1 mem
    obtain ⟨slot', inRange', _, same⟩ := (SlabView.mem_objects regular.fits).1 mem'
    exact differ (regular.fits.slotAddress_inj (regular.aligned _ (mem_pages held'))
      (regular.aligned _ (mem_pages held)) inRange' inRange same).1.symm

theorem card_objects_lt : (view.objects size).card < 2 ^ 64 :=
  length_lt_of_nodup (Multiset.coe_nodup.1 regular.nodup_objects) fun _ mem =>
    regular.object_ne_zero (Multiset.mem_coe.2 mem)

theorem card_pages_lt : view.pages.card < 2 ^ 64 :=
  length_lt_of_nodup (Multiset.coe_nodup.1 regular.nodup) fun page mem =>
    regular.nonzero page (Multiset.mem_coe.2 mem)

end Regular

/-! ## What serving and freeing do -/

/-- The stacks of the listed slabs are neither empty nor complete: a listed slab
has a free slot and an object. -/
structure Sound (size : PageSize) (view : CacheView) : Prop where
  fits : view.slabs ≠ [] → size.Fits view.objectSize
  slots : ∀ slab ∈ view.room, slab.Sound size view.objectSize
  free : ∀ slab ∈ view.room, slab.free ≠ []
  some : ∀ slab ∈ view.room, slab.free.length < size.slots view.objectSize

theorem Sound.nil (size : PageSize) (objectSize : UInt64) :
    (CacheView.mk objectSize [] []).Sound size :=
  ⟨fun some => absurd rfl some, nofun, nofun, nofun⟩

/-- A sound cache on good pages is regular. -/
theorem Sound.regular (sound : view.Sound size) (fits : size.Fits view.objectSize)
    (nodup : view.pages.Nodup) (aligned : ∀ page ∈ view.pages, size.Aligned page)
    (nonzero : ∀ page ∈ view.pages, page ≠ 0) : view.Regular size := by
  refine ⟨fits, ?_, nodup, aligned, nonzero⟩
  intro slab mem
  rcases List.mem_append.1 mem with listed | full
  · exact sound.slots slab listed
  · obtain ⟨base, _, rfl⟩ := List.mem_map.1 full
    exact ⟨List.nodup_nil, nofun⟩

/-- The slab in front serves its top slot. -/
structure Served (size : PageSize) (view : CacheView) (object : UInt64) (view' : CacheView) :
    Prop where
  objectSize : view'.objectSize = view.objectSize
  pages : view'.pages = view.pages
  objects : view'.objects size = object ::ₘ view.objects size

theorem serve_served {view : CacheView} {rest : List SlabView} (fits : size.Fits view.objectSize)
    (front : view.room = ⟨base, slot :: free⟩ :: rest)
    (sound : (SlabView.mk base (slot :: free)).Sound size view.objectSize) :
    view.Served size (view.serve size).1 (view.serve size).2 := by
  have split := slabs_front front
  have split' : (view.serve size).2.slabs.Perm
      (⟨base, free⟩ :: (rest ++ view.full.map fun base => ⟨base, []⟩)) := by
    simp only [serve, front]
    exact slabs_retire.trans (List.Perm.refl _)
  have sizes : (view.serve size).2.objectSize = view.objectSize := by
    simp only [serve, front]
    exact retire_objectSize
  refine ⟨sizes, ?_, ?_⟩
  · rw [pages_cons split, pages_cons split']
  · have address : (view.serve size).1 = size.slotAddress view.objectSize base slot := by
      simp only [serve, front]
    rw [objects_cons split, objects_cons split', sizes, address,
      Multiset.coe_eq_coe.2 (SlabView.objects_take fits sound), ← Multiset.cons_coe,
      Multiset.cons_add]

/-- Serving keeps a cache sound, also where the slab in front was just opened. -/
theorem Sound.serve {rest : List SlabView} (fits : size.Fits view.objectSize)
    (front : view.room = ⟨base, slot :: free⟩ :: rest)
    (slots : ∀ slab ∈ view.room, slab.Sound size view.objectSize)
    (few : (slot :: free).length ≤ size.slots view.objectSize)
    (behind : ∀ slab ∈ rest, slab.free ≠ [] ∧
      slab.free.length < size.slots view.objectSize) : (view.serve size).2.Sound size := by
  have first := slots _ (front ▸ List.mem_cons_self)
  have later : ∀ slab ∈ rest, slab.Sound size view.objectSize := fun slab mem =>
    slots slab (front ▸ List.mem_cons_of_mem _ mem)
  rw [CacheView.serve, front]
  cases free with
  | nil =>
    exact ⟨fun _ => fits, later, fun slab mem => (behind slab mem).1,
      fun slab mem => (behind slab mem).2⟩
  | cons next free =>
    refine ⟨fun _ => fits, ?_, ?_, ?_⟩
    · intro slab mem
      rcases List.mem_cons.1 mem with rfl | mem
      · exact first.take
      · exact later slab mem
    · intro slab mem
      rcases List.mem_cons.1 mem with rfl | mem
      · exact List.cons_ne_nil next free
      · exact (behind slab mem).1
    · intro slab mem
      rcases List.mem_cons.1 mem with rfl | mem
      · exact few
      · exact (behind slab mem).2

/-- A page opened where no slab has room is in front, with all slots free. -/
theorem openSlab_front (fits : size.Fits view.objectSize) (empty : view.room = [])
    (page : UInt64) : ∃ slot free,
      (view.openSlab size page).room = [⟨page, slot :: free⟩] ∧
      (SlabView.mk page (slot :: free)).Sound size view.objectSize ∧
      (slot :: free).length = size.slots view.objectSize := by
  have all := PageSize.Fits.length_allSlots size view.objectSize
  obtain ⟨slot, free, whole⟩ := List.exists_cons_of_length_pos (all ▸ fits.slots_pos)
  refine ⟨slot, free, ?_, whole ▸ SlabView.Sound.fresh fits page, whole ▸ all⟩
  rw [openSlab, SlabView.fresh, whole, empty]

/-- Allocation adds the object that it answers with, or changes nothing. -/
structure Allocated (size : PageSize) (view : CacheView) (answer : Except AllocError UInt64)
    (view' : CacheView) : Prop where
  objectSize : view'.objectSize = view.objectSize
  pages : view.pages ≤ view'.pages
  objects : view'.objects size = granted answer + view.objects size
  refused : ∀ error, answer = .error error → view' = view
  sound : view'.Sound size

theorem alloc_always (fits : size.Fits view.objectSize) (sound : view.Sound size) :
    (view.alloc size).Always fun result => view.Allocated size result.1 result.2 := by
  unfold alloc
  split
  · rename_i empty
    rintro (error | page)
    · exact ⟨rfl, le_refl _, (Multiset.zero_add _).symm, fun _ _ => rfl, sound⟩
    · obtain ⟨slot, free, front, fresh, all⟩ := openSlab_front fits empty page
      have served : (view.openSlab size page).Served size _ _ := serve_served fits front fresh
      refine ⟨served.objectSize, ?_, ?_, nofun, ?_⟩
      · rw [served.pages]
        exact Multiset.le_cons_self view.pages page
      · rw [served.objects, objects_openSlab]
        rfl
      · refine .serve fits front ?_ ?_ nofun
        · intro slab mem
          rw [front, List.mem_singleton] at mem
          rw [mem]
          exact fresh
        · exact Nat.le_of_eq all
  · rename_i front rest room
    obtain ⟨base, free⟩ := front
    have listed : SlabView.mk base free ∈ view.room := room ▸ List.mem_cons_self
    cases free with
    | nil => exact absurd rfl (sound.free _ listed)
    | cons slot free =>
      have served := serve_served fits room (sound.slots _ listed)
      refine ⟨served.objectSize, le_of_eq served.pages.symm, ?_, nofun, ?_⟩
      · rw [served.objects]
        rfl
      · refine .serve fits room sound.slots (Nat.le_of_lt (sound.some _ listed)) ?_
        intro slab mem
        exact ⟨sound.free slab (room ▸ .tail _ mem), sound.some slab (room ▸ .tail _ mem)⟩

/-- Where the slab of an object is once it is listed: `free` are its free slots,
and the object's slot is none of them. -/
structure Located (size : PageSize) (view : CacheView) (object : UInt64)
    (front : List SlabView) (free : List UInt64) (back : List SlabView) : Prop where
  inRange : (size.slotAt view.objectSize object).toNat < size.slots view.objectSize
  live : size.slotAt view.objectSize object ∉ free
  address : size.slotAddress view.objectSize (size.pageOf object)
    (size.slotAt view.objectSize object) = object
  sound : (SlabView.mk (size.pageOf object) free).Sound size view.objectSize
  listed : (view.reopen (size.pageOf object)).room =
    front ++ ⟨size.pageOf object, free⟩ :: back

theorem Regular.exists_located (regular : view.Regular size) (mem : object ∈ view.objects size) :
    ∃ front free back, view.Located size object front free back := by
  obtain ⟨⟨base, free⟩, held, slot, inRange, live, rfl⟩ := regular.mem_objects.1 mem
  have aligned := regular.aligned _ (mem_pages held)
  have page := regular.fits.pageOf_slotAddress aligned inRange
  have number := regular.fits.slotAt_slotAddress aligned inRange
  obtain ⟨front, back, listed⟩ := reopen_split regular.nodup held
  refine ⟨front, free, back, ?_, ?_, ?_, ?_, ?_⟩
  · rw [number]
    exact inRange
  · rw [number]
    exact live
  · rw [number, page]
  · rw [page]
    exact regular.slabs _ held
  · rw [page]
    exact listed

namespace Located

theorem objectSize_returned : (view.returned size object).objectSize = view.objectSize :=
  reopen_objectSize

theorem pages_reopen (view : CacheView) (base : UInt64) : (view.reopen base).pages = view.pages :=
  pages_congr slabs_reopen

section

variable (located : view.Located size object front free back)

include located

theorem mem_room_reopen :
    SlabView.mk (size.pageOf object) free ∈ (view.reopen (size.pageOf object)).room := by
  rw [located.listed]
  exact List.mem_append_right _ List.mem_cons_self

theorem mem_slabs_reopen :
    SlabView.mk (size.pageOf object) free ∈ (view.reopen (size.pageOf object)).slabs :=
  List.mem_append_left _ located.mem_room_reopen

theorem sound_returned : (SlabView.mk (size.pageOf object)
    (size.slotAt view.objectSize object :: free)).Sound size view.objectSize :=
  located.sound.release located.inRange located.live

variable (regular : view.Regular size)

include regular

theorem room_returned : (view.returned size object).room =
    front ++ ⟨size.pageOf object, size.slotAt view.objectSize object :: free⟩ :: back :=
  room_push (pages_reopen view _ ▸ regular.nodup) located.listed _

theorem returned_eq : view.returned size object =
    { view.reopen (size.pageOf object) with
      room :=
        front ++ ⟨size.pageOf object, size.slotAt view.objectSize object :: free⟩ :: back } :=
  congrArg (fun room => { view.reopen (size.pageOf object) with room })
    (located.room_returned regular)

/-- A page is reopened exactly if no slot of it is free. -/
theorem mem_full_iff (sound : ∀ slab ∈ view.room, slab.free ≠ []) :
    size.pageOf object ∈ view.full ↔ free = [] := by
  have listed := located.mem_room_reopen
  constructor
  · intro full
    have first : SlabView.mk (size.pageOf object) [] ∈
        (view.reopen (size.pageOf object)).room := by
      rw [reopen, if_pos full]
      exact List.mem_cons_self
    have regular' : (view.reopen (size.pageOf object)).Regular size :=
      regular.congr reopen_objectSize slabs_reopen
    exact congrArg SlabView.free (regular'.eq_of_base (List.mem_append_left _ listed)
      (List.mem_append_left _ first) rfl)
  · intro none
    refine Decidable.byContradiction fun absent => ?_
    rw [reopen, if_neg absent] at listed
    exact sound _ listed none

/-- The slab of the object among all slabs, before and after. -/
theorem split : ∃ rest, view.slabs.Perm (⟨size.pageOf object, free⟩ :: rest) ∧
    (view.returned size object).slabs.Perm
      (⟨size.pageOf object, size.slotAt view.objectSize object :: free⟩ :: rest) ∧
    rest = front ++ back ++ (view.returned size object).full.map fun base => ⟨base, []⟩ :=
  ⟨_, slabs_reopen.symm.trans (slabs_perm located.listed),
    slabs_perm (located.room_returned regular), rfl⟩

theorem pages_returned : (view.returned size object).pages = view.pages := by
  obtain ⟨rest, before, after, _⟩ := located.split regular
  rw [pages_cons before, pages_cons after]

/-- Putting an object back takes it away from the objects. -/
theorem objects_returned :
    view.objects size = object ::ₘ (view.returned size object).objects size := by
  obtain ⟨rest, before, after, _⟩ := located.split regular
  have taken := SlabView.objects_take regular.fits located.sound_returned
  rw [located.address] at taken
  rw [objects_cons before, objects_cons after, objectSize_returned,
    Multiset.coe_eq_coe.2 taken, ← Multiset.cons_coe, Multiset.cons_add]

theorem regular_returned : (view.returned size object).Regular size := by
  obtain ⟨rest, before, after, _⟩ := located.split regular
  exact regular.restack objectSize_returned before after located.sound_returned

/-- Whether the slab of the object is empty now. -/
theorem emptied_iff : (view.returned size object).Emptied size (size.pageOf object) ↔
    free.length + 1 = size.slots view.objectSize := by
  have listed : SlabView.mk (size.pageOf object) (size.slotAt view.objectSize object :: free) ∈
      (view.returned size object).room := by
    rw [located.room_returned regular]
    exact List.mem_append_right _ List.mem_cons_self
  constructor
  · rintro ⟨slab, mem, page, length⟩
    have same := (located.regular_returned regular).eq_of_base (List.mem_append_left _ mem)
      (List.mem_append_left _ listed) page
    rw [same, objectSize_returned] at length
    exact length
  · intro length
    refine ⟨_, listed, rfl, ?_⟩
    rw [objectSize_returned]
    exact length

/-- The other listed slabs are on other pages. -/
theorem base_ne (mem : slab ∈ front ++ back) : slab.base ≠ size.pageOf object := by
  have nodup : (view.reopen (size.pageOf object)).pages.Nodup :=
    pages_reopen view _ ▸ regular.nodup
  rw [pages_cons (slabs_perm located.listed), Multiset.nodup_cons] at nodup
  exact fun same => nodup.1 <| Multiset.mem_coe.2 <|
    List.mem_map.2 ⟨slab, List.mem_append_left _ mem, same⟩

/-- The other listed slabs were listed before. -/
theorem mem_room (mem : slab ∈ front ++ back) : slab ∈ view.room := by
  have differ := located.base_ne regular mem
  have listed : slab ∈ (view.reopen (size.pageOf object)).room := by
    rw [located.listed]
    rcases List.mem_append.1 mem with inFront | inBack
    · exact List.mem_append_left _ inFront
    · exact List.mem_append_right _ (.tail _ inBack)
  unfold reopen at listed
  split at listed
  · rcases List.mem_cons.1 listed with same | other
    · exact absurd (congrArg SlabView.base same) differ
    · exact other
  · exact listed

/-- The cache without the slab of the object. -/
theorem room_drop_returned :
    ((view.returned size object).drop (size.pageOf object)).room = front ++ back :=
  room_drop (located.regular_returned regular).nodup (located.room_returned regular)

theorem slabs_returned_drop : (view.returned size object).slabs.Perm
    (⟨size.pageOf object, size.slotAt view.objectSize object :: free⟩ ::
      ((view.returned size object).drop (size.pageOf object)).slabs) := by
  have full : ((view.returned size object).drop (size.pageOf object)).full =
      (view.returned size object).full := rfl
  rw [slabs.eq_1 ((view.returned size object).drop _), located.room_drop_returned regular, full]
  exact slabs_perm (located.room_returned regular)

/-- An empty slab has no object to lose. -/
theorem objects_drop (emptied : free.length + 1 = size.slots view.objectSize) :
    ((view.returned size object).drop (size.pageOf object)).objects size =
      (view.returned size object).objects size := by
  have sizes : ((view.returned size object).drop (size.pageOf object)).objectSize =
      (view.returned size object).objectSize := rfl
  rw [objects_cons (located.slabs_returned_drop regular), objectSize_returned,
    SlabView.objects_of_length regular.fits located.sound_returned emptied, Multiset.coe_nil,
    Multiset.zero_add, objects, sizes, objectSize_returned]

end

end Located

/-- Freeing takes objects away. -/
structure Freed (size : PageSize) (view : CacheView) (gone : Multiset UInt64)
    (view' : CacheView) : Prop where
  objectSize : view'.objectSize = view.objectSize
  pages : view'.pages ≤ view.pages
  objects : view.objects size = gone + view'.objects size
  sound : view'.Sound size

theorem Freed.refl (sound : view.Sound size) : view.Freed size 0 view :=
  ⟨rfl, le_refl _, (Multiset.zero_add _).symm, sound⟩

theorem Freed.trans {gone gone' : Multiset UInt64} {view'' : CacheView}
    (first : view.Freed size gone view') (second : view'.Freed size gone' view'') :
    view.Freed size (gone + gone') view'' := by
  refine ⟨second.objectSize.trans first.objectSize, second.pages.trans first.pages, ?_,
    second.sound⟩
  rw [first.objects, second.objects, add_assoc]

namespace Located

variable (located : view.Located size object front free back) (regular : view.Regular size)
  (sound : view.Sound size)

include located regular sound

/-- A slab that became empty is dropped. -/
theorem freed_drop (emptied : free.length + 1 = size.slots view.objectSize) :
    view.Freed size {object} ((view.returned size object).drop (size.pageOf object)) := by
  have left := located.room_drop_returned regular
  have sizes : ((view.returned size object).drop (size.pageOf object)).objectSize =
      view.objectSize := objectSize_returned
  have before {slab : SlabView}
      (mem : slab ∈ ((view.returned size object).drop (size.pageOf object)).room) :
      slab ∈ view.room := located.mem_room regular (left ▸ mem)
  refine ⟨sizes, ?_, ?_, ?_, ?_, ?_, ?_⟩
  · rw [← located.pages_returned regular, pages_cons (located.slabs_returned_drop regular)]
    exact Multiset.le_cons_self _ _
  · rw [located.objects_drop regular emptied, Multiset.singleton_add]
    exact located.objects_returned regular
  · rw [sizes]
    exact fun _ => regular.fits
  · rw [sizes]
    exact fun slab mem => sound.slots slab (before mem)
  · exact fun slab mem => sound.free slab (before mem)
  · rw [sizes]
    exact fun slab mem => sound.some slab (before mem)

/-- A slab with another object in it stays. -/
theorem freed_returned (some : free.length + 1 ≠ size.slots view.objectSize) :
    view.Freed size {object} (view.returned size object) := by
  have sizes : (view.returned size object).objectSize = view.objectSize := objectSize_returned
  have count := SlabView.length_liveSlots regular.fits located.sound_returned
  rw [List.length_cons] at count
  have split {slab : SlabView} (h : slab ∈ (view.returned size object).room) :
      slab ∈ view.room ∨
        slab = ⟨size.pageOf object, size.slotAt view.objectSize object :: free⟩ := by
    rw [located.room_returned regular] at h
    rcases List.mem_append.1 h with inFront | h
    · exact .inl (located.mem_room regular (List.mem_append_left _ inFront))
    · rcases List.mem_cons.1 h with same | inBack
      · exact .inr same
      · exact .inl (located.mem_room regular (List.mem_append_right _ inBack))
  refine ⟨sizes, le_of_eq (located.pages_returned regular), ?_, ?_, ?_, ?_, ?_⟩
  · rw [Multiset.singleton_add]
    exact located.objects_returned regular
  · rw [sizes]
    exact fun _ => regular.fits
  · intro slab mem
    rw [sizes]
    rcases split mem with before | rfl
    · exact sound.slots slab before
    · exact located.sound_returned
  · intro slab mem
    rcases split mem with before | rfl
    · exact sound.free slab before
    · exact List.cons_ne_nil _ _
  · intro slab mem
    rw [sizes]
    rcases split mem with before | rfl
    · exact sound.some slab before
    · rw [List.length_cons]
      omega

end Located

theorem free_always (regular : view.Regular size) (sound : view.Sound size)
    (mem : object ∈ view.objects size) :
    (view.free size object).Always (view.Freed size {object}) := by
  obtain ⟨front, free, back, located⟩ := regular.exists_located mem
  have emptied := located.emptied_iff regular
  unfold CacheView.free
  dsimp only
  split
  · rename_i gone
    exact located.freed_drop regular sound (emptied.1 gone)
  · rename_i some
    exact located.freed_returned regular sound fun all => some (emptied.2 all)

end CacheView

end SlabHeap
