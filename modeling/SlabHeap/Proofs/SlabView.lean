import Mathlib.Data.List.Perm.Basic
import Mathlib.Data.List.Nodup
import SlabHeap.Proofs.SlotRuns
import SlabHeap.Proofs.SlotStack

/-!
# Slabs as stacks of free slots

A `SlabView` is a page together with the stack of its free slots.  It describes a
slab in memory (`SlabView.Describes`) if the header has the object size and the
first slot, the counter has what is missing from the stack, and the free chain is
the stack.

Taking the top slot off the stack makes one more object live
(`SlabView.objects_take`), and putting a live slot on top is the way back.
-/

namespace SlabHeap

/-- All slots of a page, in the order of their addresses. -/
def PageSize.allSlots (size : PageSize) (objectSize : UInt64) : List UInt64 :=
  (List.range (size.slots objectSize)).map UInt64.ofNat

/-- A page and the stack of its free slots. -/
structure SlabView where
  /-- The address of the page. -/
  base : UInt64
  /-- The free slots, the next to be handed out in front. -/
  free : List UInt64
  deriving DecidableEq, Repr

namespace SlabView

/-- The slab at the page. -/
def slab (view : SlabView) : Slab := ⟨view.base⟩

/-- A page all of whose slots are free. -/
def fresh (size : PageSize) (objectSize base : UInt64) : SlabView :=
  ⟨base, size.allSlots objectSize⟩

/-- The slots handed out. -/
def liveSlots (size : PageSize) (objectSize : UInt64) (view : SlabView) : List UInt64 :=
  (size.allSlots objectSize).filter (· ∉ view.free)

/-- The addresses of the objects handed out. -/
def objects (size : PageSize) (objectSize : UInt64) (view : SlabView) : List UInt64 :=
  (view.liveSlots size objectSize).map (size.slotAddress objectSize view.base)

/-- The free slots are slots of the page, each once. -/
structure Sound (size : PageSize) (objectSize : UInt64) (view : SlabView) : Prop where
  nodup : view.free.Nodup
  inRange : ∀ slot ∈ view.free, slot.toNat < size.slots objectSize

/-- The header and the table in memory say what the view says. -/
structure Describes (size : PageSize) (objectSize : UInt64) (view : SlabView)
    (memory : Memory) : Prop where
  sizeNoted : view.slab.objectSize memory = objectSize
  baseNoted : view.slab.objectBase memory =
    view.base + UInt64.ofNat (firstSlot (size.slots objectSize))
  liveCount : (view.slab.live memory).toNat + view.free.length = size.slots objectSize
  freeChain : view.slab.FreeSlots memory view.free

end SlabView

/-! ## Slots of a page -/

namespace PageSize.Fits

variable {size : PageSize} {objectSize slot : UInt64}

theorem mem_allSlots (fits : size.Fits objectSize) :
    slot ∈ size.allSlots objectSize ↔ slot.toNat < size.slots objectSize :=
  Slab.mem_inOrder fits.slots_le

theorem nodup_allSlots (fits : size.Fits objectSize) : (size.allSlots objectSize).Nodup :=
  Slab.nodup_inOrder fits.slots_le

theorem length_allSlots (size : PageSize) (objectSize : UInt64) :
    (size.allSlots objectSize).length = size.slots objectSize := by
  simp [allSlots]

end PageSize.Fits

/-! ## Objects of a view -/

namespace SlabView

variable {size : PageSize} {objectSize base slot : UInt64} {view : SlabView} {free : List UInt64}

theorem mem_liveSlots (fits : size.Fits objectSize) :
    slot ∈ view.liveSlots size objectSize ↔
      slot.toNat < size.slots objectSize ∧ slot ∉ view.free := by
  simp [liveSlots, fits.mem_allSlots]

theorem nodup_liveSlots (fits : size.Fits objectSize) :
    (view.liveSlots size objectSize).Nodup := fits.nodup_allSlots.filter _

/-- Every slot is live or free. -/
theorem perm_allSlots (fits : size.Fits objectSize) (sound : view.Sound size objectSize) :
    (view.liveSlots size objectSize ++ view.free).Perm (size.allSlots objectSize) := by
  refine (List.perm_ext_iff_of_nodup ?_ fits.nodup_allSlots).2 ?_
  · refine List.nodup_append.2 ⟨nodup_liveSlots fits, sound.nodup, ?_⟩
    intro a live b free same
    subst same
    exact ((mem_liveSlots fits).1 live).2 free
  · intro slot
    rw [List.mem_append, mem_liveSlots fits, fits.mem_allSlots]
    constructor
    · rintro (live | free)
      · exact live.1
      · exact sound.inRange slot free
    · intro inRange
      by_cases free : slot ∈ view.free
      · exact .inr free
      · exact .inl ⟨inRange, free⟩

theorem length_liveSlots (fits : size.Fits objectSize) (sound : view.Sound size objectSize) :
    (view.liveSlots size objectSize).length + view.free.length = size.slots objectSize := by
  rw [← List.length_append, (perm_allSlots fits sound).length_eq,
    PageSize.Fits.length_allSlots]

@[simp] theorem length_objects :
    (view.objects size objectSize).length = (view.liveSlots size objectSize).length := by
  simp [objects]

/-- Taking the top slot off the stack makes it live. -/
theorem liveSlots_take (fits : size.Fits objectSize)
    (sound : (SlabView.mk base (slot :: free)).Sound size objectSize) :
    ((SlabView.mk base free).liveSlots size objectSize).Perm
      (slot :: (SlabView.mk base (slot :: free)).liveSlots size objectSize) := by
  have fresh := (List.nodup_cons.1 sound.nodup).1
  refine (List.perm_ext_iff_of_nodup (nodup_liveSlots fits) ?_).2 ?_
  · refine List.nodup_cons.2 ⟨?_, nodup_liveSlots fits⟩
    intro live
    exact ((mem_liveSlots fits).1 live).2 List.mem_cons_self
  · intro other
    rw [List.mem_cons, mem_liveSlots fits, mem_liveSlots fits, List.mem_cons, not_or]
    constructor
    · intro live
      by_cases same : other = slot
      · exact .inl same
      · exact .inr ⟨live.1, same, live.2⟩
    · rintro (same | live)
      · subst same
        exact ⟨sound.inRange _ List.mem_cons_self, fresh⟩
      · exact ⟨live.1, live.2.2⟩

theorem objects_take (fits : size.Fits objectSize)
    (sound : (SlabView.mk base (slot :: free)).Sound size objectSize) :
    ((SlabView.mk base free).objects size objectSize).Perm
      (size.slotAddress objectSize base slot ::
        (SlabView.mk base (slot :: free)).objects size objectSize) :=
  (liveSlots_take fits sound).map (size.slotAddress objectSize base)

theorem objects_fresh (size : PageSize) (objectSize base : UInt64) :
    (fresh size objectSize base).objects size objectSize = [] := by
  have none : (fresh size objectSize base).liveSlots size objectSize = [] := by
    refine List.filter_eq_nil_iff.2 ?_
    intro slot mem
    simp [fresh, mem]
  rw [objects, none, List.map_nil]

/-- Where all slots are free there is no object. -/
theorem objects_of_length (fits : size.Fits objectSize) (sound : view.Sound size objectSize)
    (all : view.free.length = size.slots objectSize) : view.objects size objectSize = [] := by
  have count := length_liveSlots fits sound
  have none : view.liveSlots size objectSize = [] := List.eq_nil_of_length_eq_zero (by omega)
  rw [objects, none, List.map_nil]

theorem mem_objects {object : UInt64} (fits : size.Fits objectSize) :
    object ∈ view.objects size objectSize ↔
      ∃ slot, slot.toNat < size.slots objectSize ∧ slot ∉ view.free ∧
        size.slotAddress objectSize view.base slot = object := by
  simp only [objects, List.mem_map, mem_liveSlots fits, and_assoc]

theorem nodup_objects (fits : size.Fits objectSize) (aligned : size.Aligned view.base) :
    (view.objects size objectSize).Nodup := by
  refine List.Nodup.map_on ?_ (nodup_liveSlots fits)
  intro slot live slot' live' same
  have inRange := ((mem_liveSlots fits).1 live).1
  have inRange' := ((mem_liveSlots fits).1 live').1
  exact (fits.slotAddress_inj aligned aligned inRange inRange' same).2

namespace Sound

theorem fresh (fits : size.Fits objectSize) (base : UInt64) :
    (SlabView.fresh size objectSize base).Sound size objectSize :=
  ⟨fits.nodup_allSlots, fun _ mem => fits.mem_allSlots.1 mem⟩

theorem take (sound : (SlabView.mk base (slot :: free)).Sound size objectSize) :
    (SlabView.mk base free).Sound size objectSize :=
  ⟨(List.nodup_cons.1 sound.nodup).2, fun other mem => sound.inRange other (.tail _ mem)⟩

theorem release (sound : (SlabView.mk base free).Sound size objectSize)
    (inRange : slot.toNat < size.slots objectSize) (live : slot ∉ free) :
    (SlabView.mk base (slot :: free)).Sound size objectSize := by
  refine ⟨List.nodup_cons.2 ⟨live, sound.nodup⟩, ?_⟩
  intro other mem
  rcases List.mem_cons.1 mem with same | later
  · rw [same]
    exact inRange
  · exact sound.inRange other later

end Sound

end SlabView

end SlabHeap
