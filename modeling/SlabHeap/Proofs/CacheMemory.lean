import SlabHeap.Cache.Objects
import SlabHeap.Proofs.CacheView

/-!
# Caches in memory

A cache in memory has the slabs of a view (`CacheView.Holds`) if its space list
links the slabs with room and the page of each slab says what its stack is.  It is
described by the view (`CacheView.Describes`) if it also counts the objects.  Both
depend on the headers and tables of the slabs only (`CacheView.notes`), so what is
written behind the tables (`CacheView.bodies`) does not matter to them.

Each step of serving and freeing has a lemma: opening a page, retiring the slab in
front, bringing a full slab back and dropping an empty one.
-/

namespace SlabHeap

theorem SpaceList.Holds.congr {list : SpaceList} {memory memory' : Memory} {slabs : List Slab}
    (h : list.Holds memory slabs)
    (same : ∀ slab ∈ slabs, slab.next memory' = slab.next memory) :
    list.Holds memory' slabs :=
  ⟨h.1.congr same, h.2⟩
theorem PageSize.Fits.notes_subset_page {size : PageSize} {objectSize : UInt64}
    (fits : size.Fits objectSize) (base : UInt64) : size.notes objectSize base ⊆ size.page base :=
  Memory.run_mono fits.notes_le

namespace CacheView

variable {size : PageSize} {view view' : CacheView} {cache : Cache} {memory memory' : Memory}
  {slab slab' : SlabView} {front back rest : List SlabView} {base page slot : UInt64}
  {free free' : List UInt64} {others : Multiset UInt64}

/-! ## Notes and bodies -/

/-- The addresses of the headers and tables of the slabs. -/
def notes (size : PageSize) (view : CacheView) : Set UInt64 :=
  {address | ∃ page ∈ view.pages, address ∈ size.notes view.objectSize page}

/-- The addresses of what stands behind the tables. -/
def bodies (size : PageSize) (view : CacheView) : Set UInt64 :=
  {address | size.pageOf address ∈ view.pages ∧
    address ∉ size.notes view.objectSize (size.pageOf address)}

theorem bodies_congr (sizes : view'.objectSize = view.objectSize)
    (pages : view'.pages = view.pages) : view'.bodies size = view.bodies size := by
  rw [bodies, bodies, sizes, pages]

theorem bodies_mono (sizes : view'.objectSize = view.objectSize)
    (pages : view.pages ≤ view'.pages) : view.bodies size ⊆ view'.bodies size := by
  intro address inside
  refine ⟨Multiset.mem_of_le pages inside.1, ?_⟩
  rw [sizes]
  exact inside.2

theorem notes_congr (sizes : view'.objectSize = view.objectSize)
    (pages : view'.pages = view.pages) : view'.notes size = view.notes size := by
  rw [notes, notes, sizes, pages]

theorem bodies_subset_covered : view.bodies size ⊆ size.covered view.pages :=
  fun _ inside => inside.1

theorem notes_subset (size : PageSize) (mem : slab ∈ view.slabs) :
    size.notes view.objectSize slab.base ⊆ view.notes size :=
  fun _ inside => ⟨slab.base, mem_pages mem, inside⟩

/-- The links of slabs of the cache are part of its notes. -/
theorem eqOn_relinks {slabs : List Slab} (relinks : Slab.Relinks slabs memory memory')
    (own : slabs ⊆ view.slabs.map SlabView.slab) :
    Set.EqOn memory'.byte memory.byte (view.notes size)ᶜ := by
  refine relinks.eqOn fun slab onList => ?_
  obtain ⟨slab, held, rfl⟩ := List.mem_map.1 (own onList)
  exact (size.link_subset_notes view.objectSize slab.base).trans (notes_subset size held)

namespace Regular

variable (regular : view.Regular size)

include regular

theorem notes_subset_covered : view.notes size ⊆ size.covered view.pages := by
  rintro address ⟨page, held, inside⟩
  have same := regular.fits.pageOf_of_mem_notes (regular.aligned page held) inside
  exact (show size.pageOf address ∈ view.pages from same ▸ held)

/-- The notes are not part of the bodies, nor of pages held by others. -/
theorem subset_compl_notes (apart : (view.pages + others).Nodup) :
    size.covered others ∪ view.bodies size ⊆ (view.notes size)ᶜ := by
  rintro address (other | body) ⟨page, held, inside⟩
  · have same := regular.fits.pageOf_of_mem_notes (regular.aligned page held) inside
    have member : size.pageOf address ∈ others := other
    rw [same] at member
    exact Multiset.disjoint_left.1 (Multiset.nodup_add.1 apart).2.2 held member
  · have same := regular.fits.pageOf_of_mem_notes (regular.aligned page held) inside
    have outside := body.2
    rw [same] at outside
    exact outside inside

/-- The bytes of an object are part of the bodies. -/
theorem run_object_subset_bodies {object : UInt64} (mem : object ∈ view.objects size) :
    Memory.run object view.objectSize.toNat ⊆ view.bodies size := by
  intro address inside
  obtain ⟨page, outside⟩ := regular.run_object_subset mem inside
  rw [PageSize.mem_page_iff (size.pageOf_aligned object)] at page
  rw [← page] at outside
  refine ⟨?_, outside⟩
  rw [page]
  exact regular.pageOf_mem mem

theorem disjoint_notes (mem : slab ∈ view.slabs) (mem' : slab' ∈ view.slabs)
    (differ : slab.base ≠ slab'.base) :
    Disjoint (size.notes view.objectSize slab.base) (size.notes view.objectSize slab'.base) :=
  ((regular.aligned _ (mem_pages mem)).disjoint_page (regular.aligned _ (mem_pages mem'))
    differ).mono (regular.fits.notes_subset_page _) (regular.fits.notes_subset_page _)

theorem spread : Slab.Spread (view.slabs.map SlabView.slab) := by
  refine .of_aligned regular.fits.wide ?_ ?_
  · intro slab mem
    obtain ⟨slab, held, rfl⟩ := List.mem_map.1 mem
    exact regular.nonzero _ (mem_pages held)
  · intro slab mem
    obtain ⟨slab, held, rfl⟩ := List.mem_map.1 mem
    exact regular.aligned _ (mem_pages held)

theorem spread_room : Slab.Spread (view.room.map SlabView.slab) := by
  refine regular.spread.subset ?_
  rw [CacheView.slabs, List.map_append]
  exact List.subset_append_left _ _

theorem nodup_room : (view.room.map SlabView.slab).Nodup := by
  have bases : (view.slabs.map SlabView.base).Nodup := regular.nodup
  rw [CacheView.slabs, List.map_append] at bases
  refine List.Nodup.of_map Slab.base ?_
  rw [List.map_map]
  exact (List.nodup_append.1 bases).1

/-- Linking slabs of the cache anew leaves what is known of the slots. -/
theorem relink {slabs : List Slab} (relinks : Slab.Relinks slabs memory memory')
    (own : slabs ⊆ view.slabs.map SlabView.slab)
    (described : ∀ slab ∈ view.slabs, slab.Describes size view.objectSize memory) :
    ∀ slab ∈ view.slabs, slab.Describes size view.objectSize memory' := by
  intro slab mem
  refine (described slab mem).relink regular.fits (regular.slabs slab mem) relinks ?_
  intro linked onList
  obtain ⟨slab', held, rfl⟩ := List.mem_map.1 (own onList)
  by_cases same : slab'.base = slab.base
  · exact .inl (congrArg Slab.mk same)
  · exact .inr ((regular.disjoint_notes held mem same).mono_left (size.link_subset_notes _ _))

end Regular

/-! ## Caches in memory -/

/-- The slabs of the cache in memory are the slabs of the view. -/
structure Holds (size : PageSize) (view : CacheView) (cache : Cache) (memory : Memory) :
    Prop where
  objectSize : cache.objectSize = view.objectSize
  space : cache.space.Holds memory (view.room.map SlabView.slab)
  pages : cache.pages.toNat = view.pages.card
  slabs : ∀ slab ∈ view.slabs, slab.Describes size view.objectSize memory

/-- The cache in memory has the slabs of the view and counts its objects. -/
structure Describes (size : PageSize) (view : CacheView) (cache : Cache) (memory : Memory) :
    Prop extends Holds size view cache memory where
  live : cache.live.toNat = (view.objects size).card

/-- A cache without a slab. -/
theorem Describes.fresh (size : PageSize) (objectSize : UInt64) (memory : Memory) :
    (CacheView.mk objectSize [] []).Describes size { objectSize } memory :=
  ⟨⟨rfl, ⟨rfl, rfl⟩, rfl, nofun⟩, rfl⟩

/-- What a cache tells about itself, from its slabs. -/
def stats (size : PageSize) (view : CacheView) : CacheStats where
  objectSize := view.objectSize
  pages := UInt64.ofNat view.slabs.length
  live := UInt64.ofNat (view.objects size).card
  partialSlabs := UInt64.ofNat view.room.length
  front := (view.room.map SlabView.slab).head?

theorem Describes.stats_eq (h : view.Describes size cache memory) :
    cache.stats = view.stats size := by
  have pages : cache.pages = UInt64.ofNat view.slabs.length := by
    have count := h.pages
    rw [CacheView.pages, Multiset.coe_card, List.length_map] at count
    rw [← count, UInt64.ofNat_toNat]
  have live : cache.live = UInt64.ofNat (view.objects size).card := by
    rw [← h.live, UInt64.ofNat_toNat]
  have listed : cache.space.length = UInt64.ofNat view.room.length := by
    have count := h.space.2
    rw [List.length_map] at count
    rw [← count, UInt64.ofNat_toNat]
  have front : cache.space.head = (view.room.map SlabView.slab).head? := h.space.1.head?_eq
  rw [Cache.stats, CacheView.stats, h.objectSize, pages, live, listed, front]

/-- What is known of a cache depends on its notes only. -/
theorem Holds.congr (h : view.Holds size cache memory)
    (regular : view.slabs ≠ [] → view.Regular size)
    (same : Set.EqOn memory'.byte memory.byte (view.notes size)) :
    view.Holds size cache memory' := by
  refine ⟨h.objectSize, h.space.congr ?_, h.pages, ?_⟩
  · intro slab mem
    obtain ⟨slab, held, rfl⟩ := List.mem_map.1 mem
    exact Slab.next_congr <| same.mono <| (size.link_subset_notes _ _).trans <|
      notes_subset size (List.mem_append_left _ held)
  · intro slab mem
    have regular := regular (List.ne_nil_of_mem mem)
    exact (h.slabs slab mem).congr regular.fits (regular.slabs slab mem)
      (same.mono (notes_subset size mem))

theorem Describes.congr (h : view.Describes size cache memory)
    (regular : view.slabs ≠ [] → view.Regular size)
    (same : Set.EqOn memory'.byte memory.byte (view.notes size)) :
    view.Describes size cache memory' :=
  ⟨h.toHolds.congr regular same, h.live⟩

/-- Changing the stack of one listed slab. -/
theorem Holds.restack (h : view.Holds size cache memory) (regular : view.Regular size)
    (split : view.room = front ++ ⟨base, free⟩ :: back)
    (described : (SlabView.mk base free').Describes size view.objectSize memory')
    (next : (Slab.mk base).next memory' = (Slab.mk base).next memory)
    (same : Set.EqOn memory'.byte memory.byte (size.notes view.objectSize base)ᶜ) :
    ({ view with room := front ++ ⟨base, free'⟩ :: back } : CacheView).Holds size cache
      memory' := by
  have before := slabs_perm split
  have held : SlabView.mk base free ∈ view.slabs := before.mem_iff.2 List.mem_cons_self
  have kept : ∀ slab ∈ view.slabs, slab.base ≠ base →
      Set.EqOn memory'.byte memory.byte (size.notes view.objectSize slab.base) :=
    fun slab mem differ => same.mono (regular.disjoint_notes mem held differ).subset_compl_right
  have names : (front ++ ⟨base, free'⟩ :: back).map SlabView.slab =
      view.room.map SlabView.slab := by
    rw [split]
    simp only [List.map_append, List.map_cons, SlabView.slab]
  have bases : (SlabView.mk base free').base ::ₘ ((front ++ back ++ view.full.map fun base =>
      ⟨base, []⟩ : List SlabView).map SlabView.base : Multiset UInt64) = view.pages :=
    (pages_cons before).symm
  have after : ({ view with room := front ++ ⟨base, free'⟩ :: back } : CacheView).slabs.Perm
      (⟨base, free'⟩ :: (front ++ back ++ view.full.map fun base => ⟨base, []⟩)) :=
    slabs_perm rfl
  refine ⟨h.objectSize, ?_, ?_, ?_⟩
  · dsimp only
    rw [names]
    refine h.space.congr fun slab mem => ?_
    obtain ⟨slab, listed, rfl⟩ := List.mem_map.1 mem
    by_cases own : slab.base = base
    · rw [SlabView.slab, own]
      exact next
    · exact Slab.next_congr ((kept slab (List.mem_append_left _ listed) own).mono
        (size.link_subset_notes _ _))
  · rw [pages_cons after, bases]
    exact h.pages
  · intro slab mem
    rcases List.mem_cons.1 (after.mem_iff.1 mem) with own | other
    · rw [own]
      exact described
    · have member : slab ∈ view.slabs := before.mem_iff.2 (.tail _ other)
      have nodup := regular.nodup
      rw [pages_cons before, Multiset.nodup_cons] at nodup
      have differ : slab.base ≠ base := fun same =>
        nodup.1 (Multiset.mem_coe.2 (List.mem_map.2 ⟨slab, other, same⟩))
      exact (h.slabs slab member).congr regular.fits (regular.slabs slab member)
        (kept slab member differ)

/-! ## The steps -/

/-- A page carved and pushed is the slab in front. -/
theorem Holds.openSlab (h : view.Holds size cache memory) (regular : view.Regular size)
    (fresh : page ∉ view.pages) (aligned : size.Aligned page) (nonzero : page ≠ 0) :
    ∃ slots memory₁ space memory₂ pages,
      (Slab.mk page).carve memory view.objectSize size.bytes = .ok (slots, memory₁) ∧
      cache.space.pushFront memory₁ ⟨page⟩ = .ok (space, memory₂) ∧
      checkedAdd cache.pages 1 = .ok pages ∧
      (view.openSlab size page).Holds size { cache with space, pages } memory₂ ∧
      Set.EqOn memory₂.byte memory.byte ((view.openSlab size page).notes size)ᶜ := by
  have opened := regular.openSlab fresh aligned nonzero
  have few := opened.card_pages_lt
  have held : SlabView.fresh size view.objectSize page ∈ (view.openSlab size page).slabs :=
    List.mem_cons_self
  obtain ⟨memory₁, carved, described, same⟩ := carve_describes regular.fits aligned memory
  have differ : ∀ slab ∈ view.slabs, slab.base ≠ page := fun slab mem same =>
    fresh (same ▸ mem_pages mem)
  have kept : ∀ slab ∈ view.slabs,
      Set.EqOn memory₁.byte memory.byte (size.notes view.objectSize slab.base) :=
    fun slab mem => same.mono
      (opened.disjoint_notes (.tail _ mem) held (differ slab mem)).subset_compl_right
  have listed : cache.space.Holds memory₁ (view.room.map SlabView.slab) := by
    refine h.space.congr fun slab mem => ?_
    obtain ⟨slab, onList, rfl⟩ := List.mem_map.1 mem
    exact Slab.next_congr ((kept slab (List.mem_append_left _ onList)).mono
      (size.link_subset_notes _ _))
  have spread : Slab.Spread (⟨page⟩ :: view.room.map SlabView.slab) := opened.spread_room
  have nodup : (Slab.mk page :: view.room.map SlabView.slab).Nodup := opened.nodup_room
  obtain ⟨space, memory₂, pushed, holds, relinks⟩ :=
    SpaceList.pushFront_holds listed spread (List.nodup_cons.1 nodup).1
  have own : [Slab.mk page] ⊆ (view.openSlab size page).slabs.map SlabView.slab :=
    List.cons_subset.2 ⟨List.mem_map_of_mem held, List.nil_subset _⟩
  have card : (view.openSlab size page).pages.card = view.pages.card + 1 :=
    Multiset.card_cons page view.pages
  rw [card, ← h.pages] at few
  obtain ⟨counted, more⟩ := checkedAdd_one few
  refine ⟨_, memory₁, space, memory₂, cache.pages + 1, carved, pushed, counted,
    ⟨h.objectSize, holds, ?_, ?_⟩, ?_⟩
  · dsimp only
    rw [more, h.pages, card]
  · refine opened.relink relinks own fun slab mem => ?_
    rcases List.mem_cons.1 mem with fresh | other
    · rw [fresh]
      exact described
    · exact (h.slabs slab other).congr regular.fits (regular.slabs slab other) (kept slab other)
  · exact (eqOn_relinks relinks own).trans
      (same.mono (Set.compl_subset_compl.2 (notes_subset size held)))

/-- A slot of the slab in front is taken. -/
theorem Holds.take (h : view.Holds size cache memory) (regular : view.Regular size)
    (front : view.room = ⟨base, slot :: free⟩ :: rest) :
    ∃ memory', (Slab.mk base).take memory =
        .ok (some (size.slotAddress view.objectSize base slot), memory') ∧
      ({ view with room := ⟨base, free⟩ :: rest } : CacheView).Holds size cache memory' ∧
      Set.EqOn memory'.byte memory.byte (view.notes size)ᶜ := by
  have held : SlabView.mk base (slot :: free) ∈ view.slabs :=
    List.mem_append_left _ (front ▸ List.mem_cons_self)
  obtain ⟨memory', taken, described, next, same⟩ :=
    take_describes regular.fits (regular.aligned _ (mem_pages held)) (regular.slabs _ held)
      (h.slabs _ held)
  have split : view.room = [] ++ ⟨base, slot :: free⟩ :: rest := front
  exact ⟨memory', taken, h.restack regular split described next same,
    same.mono (Set.compl_subset_compl.2 (notes_subset size held))⟩

/-- A full slab in front is popped. -/
theorem Holds.retire (h : view.Holds size cache memory) (regular : view.Regular size)
    (front : view.room = ⟨base, []⟩ :: rest) :
    ∃ space memory', cache.space.popFront memory = .ok ((some ⟨base⟩, space), memory') ∧
      view.retire.Holds size { cache with space } memory' ∧
      Set.EqOn memory'.byte memory.byte (view.notes size)ᶜ := by
  have listed := h.space
  have spread := regular.spread_room
  rw [front, List.map_cons] at listed spread
  obtain ⟨space, memory', popped, holds, relinks⟩ := SpaceList.popFront_holds listed spread
  have own : [Slab.mk base] ⊆ view.slabs.map SlabView.slab := by
    rw [CacheView.slabs, front]
    exact List.cons_subset.2 ⟨List.mem_cons_self, List.nil_subset _⟩
  have retired : view.retire = { view with room := rest, full := base :: view.full } := by
    rw [CacheView.retire, front]
  have described := regular.relink relinks own h.slabs
  refine ⟨space, memory', popped, ⟨?_, ?_, ?_, ?_⟩, eqOn_relinks relinks own⟩
  · rw [retire_objectSize]
    exact h.objectSize
  · rw [retired]
    exact holds
  · rw [pages_congr slabs_retire]
    exact h.pages
  · intro slab mem
    rw [retire_objectSize]
    exact described slab (slabs_retire.mem_iff.1 mem)

/-- A full slab is pushed in front again. -/
theorem Holds.reopen (h : view.Holds size cache memory) (regular : view.Regular size)
    (mem : base ∈ view.full) :
    ∃ space memory', cache.space.pushFront memory ⟨base⟩ = .ok (space, memory') ∧
      (view.reopen base).Holds size { cache with space } memory' ∧
      Set.EqOn memory'.byte memory.byte (view.notes size)ᶜ := by
  have reopened : view.reopen base =
      { view with room := ⟨base, []⟩ :: view.room, full := view.full.erase base } := by
    rw [CacheView.reopen, if_pos mem]
  have regular' : (view.reopen base).Regular size :=
    regular.congr reopen_objectSize slabs_reopen
  have spread := regular'.spread_room
  have nodup := regular'.nodup_room
  rw [reopened] at spread nodup
  obtain ⟨space, memory', pushed, holds, relinks⟩ :=
    SpaceList.pushFront_holds h.space spread (List.nodup_cons.1 nodup).1
  have own : [Slab.mk base] ⊆ view.slabs.map SlabView.slab :=
    List.cons_subset.2 ⟨List.mem_map.2
      ⟨⟨base, []⟩, List.mem_append_right _ (List.mem_map_of_mem mem), rfl⟩, List.nil_subset _⟩
  have described := regular.relink relinks own h.slabs
  refine ⟨space, memory', pushed, ⟨?_, ?_, ?_, ?_⟩, eqOn_relinks relinks own⟩
  · rw [reopen_objectSize]
    exact h.objectSize
  · rw [reopened]
    exact holds
  · rw [pages_congr slabs_reopen]
    exact h.pages
  · intro slab mem
    rw [reopen_objectSize]
    exact described slab (slabs_reopen.mem_iff.1 mem)

/-- A listed slab is taken out, wherever it stands. -/
theorem Holds.drop (h : view.Holds size cache memory) (regular : view.Regular size)
    (split : view.room = front ++ slab :: back) :
    ∃ space memory' pages,
      cache.space.remove memory slab.slab = .ok ((true, space), memory') ∧
      checkedSub cache.pages 1 = .ok pages ∧
      (view.drop slab.base).Holds size { cache with space, pages } memory' ∧
      Set.EqOn memory'.byte memory.byte (view.notes size)ᶜ := by
  have left := room_drop regular.nodup split
  have listed : slab ∈ view.room := split ▸ List.mem_append_right _ List.mem_cons_self
  have own : view.room.map SlabView.slab ⊆ view.slabs.map SlabView.slab := by
    rw [CacheView.slabs, List.map_append]
    exact List.subset_append_left _ _
  obtain ⟨space, memory', removed, holds, relinks⟩ :=
    SpaceList.remove_holds h.space regular.spread_room (List.mem_map_of_mem listed)
  have described := regular.relink relinks own h.slabs
  have before := slabs_perm split
  have after : view.slabs.Perm (slab :: (view.drop slab.base).slabs) := by
    rw [CacheView.slabs.eq_1 (view.drop slab.base), left]
    exact before
  have card : view.pages.card = (view.drop slab.base).pages.card + 1 := by
    rw [pages_cons after]
    exact Multiset.card_cons _ _
  have names : (view.room.map SlabView.slab).erase slab.slab =
      (view.drop slab.base).room.map SlabView.slab := by
    have nodup := h.space.nodup
    rw [split, List.map_append, List.map_cons] at nodup
    have absent : slab.slab ∉ front.map SlabView.slab := fun mem =>
      (List.nodup_append.1 nodup).2.2 _ mem _ List.mem_cons_self rfl
    rw [left, split, List.map_append, List.map_cons, List.erase_append_right _ absent,
      List.erase_cons_head, List.map_append]
  have count := h.pages
  rw [card] at count
  have pos : 0 < cache.pages.toNat := by omega
  obtain ⟨counted, fewer⟩ := checkedSub_one pos
  refine ⟨space, memory', cache.pages - 1, removed, counted, ⟨h.objectSize, ?_, ?_, ?_⟩,
    eqOn_relinks relinks own⟩
  · rw [← names]
    exact holds
  · exact Nat.succ.inj (fewer.trans count)
  · exact fun slab mem => described slab (after.mem_iff.2 (.tail _ mem))

end CacheView

end SlabHeap
