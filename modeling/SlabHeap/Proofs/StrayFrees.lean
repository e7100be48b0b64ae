import SlabHeap.Proofs.BestCapacity
import SlabHeap.Proofs.CacheSessions
import SlabHeap.Proofs.SlabLayout
import SlabHeap.Proofs.WriteSets

/-!
# Frees of addresses that are no objects

An address in the page of a slab is taken for a slot by its distance from slot 0, and
two checks refuse the rest: the distance must be a multiple of the object size, and the
slot number below `maxSlots`.  The second check is the same for every slab and does not
ask how many slots there are.

What a page leaves behind its last slot is at most one more slot long, unless the slots
are as many as a byte can count (`PageSize.Fits.length_le`).  Below slot 0 the distance
wraps, and is too large for a slot number.  So the checks let pass the addresses of
slots, and one more, where a slot after the last one would start
(`SlabView.Describes.slotOf_iff`).  An address that is refused leaves nothing but
headers changed, and so all that a free can damage is the byte behind the table
(`Cache.ReachableOver.free_guarded`).  That byte is padding, or the first byte of
slot 0 if no padding is needed (`Cache.ReachableOver.free_overwrites`).
-/

namespace SlabHeap

/-! ## The space behind the last slot -/

namespace PageSize

variable {size : PageSize} {objectSize : UInt64}

/-- Among multiples of 16, what is left of a page behind its last slot is not more than a slot,
unless it has as many slots as a byte can count. -/
theorem Fits.length_le (fits : size.Fits objectSize) (object : 16 ∣ objectSize.toNat)
    (few : size.slots objectSize < 255) :
    size.length ≤
      firstSlot (size.slots objectSize) + (size.slots objectSize + 1) * objectSize.toNat := by
  have page := fits.dvd_length
  rw [← toNat_bytes_eq_length] at page
  have domain : CapacityDomain size.bytes objectSize := ⟨toNat_bytes_le, fits.share⟩
  have answer := (domain.untrimmed page object).capacity_eq fits.share
  have most := slotEstimate_le size.bytes objectSize
  have estimate : size.slots objectSize = slotEstimate size.bytes objectSize := by
    rw [slots_of_capacity answer, UInt64.toNat_ofNat', Nat.mod_eq_of_lt (by omega)]
  have quotient : size.slots objectSize = (size.length - 32) / (objectSize.toNat + 1) := by
    rw [estimate, slotEstimate, toNat_bytes_eq_length] at few ⊢
    omega
  have above := Nat.lt_mul_div_succ (size.length - 32) (Nat.succ_pos objectSize.toNat)
  rw [← quotient, Nat.mul_comm, Nat.mul_succ] at above
  have start := le_firstSlot (size.slots objectSize)
  omega

/-- A page that holds the largest object has room for a whole table. -/
theorem Fits.whole_table_le (accepted : size.Fits maxObjectSize) : 288 ≤ size.length := by
  have first : (0 : UInt64).toNat < size.slots maxObjectSize := accepted.slots_pos
  have room := accepted.slot_end_le first
  have largest : maxObjectSize.toNat = 4048 := rfl
  omega

end PageSize

/-! ## Addresses of a page with a slot number -/

section Accepted

variable {size : PageSize} {objectSize address slot : UInt64} {view : SlabView} {memory : Memory}

/-- In a page, an address has a slot number in range exactly if it is where a slot starts, or
where the slot after the last one would. -/
theorem SlabView.Describes.slotOf_iff (h : view.Describes size objectSize memory)
    (fits : size.Fits objectSize) (aligned : size.Aligned view.base)
    (object : 16 ∣ objectSize.toNat) (small : objectSize ≤ maxObjectSize)
    (inPage : address ∈ size.page view.base) :
    view.slab.slotOf memory address = .ok slot ∧ slot < maxSlots ↔
      slot.toNat ≤ size.slots objectSize ∧ slot < maxSlots ∧
        view.slab.addressOf memory slot = .ok address := by
  have first := fits.toNat_first aligned
  have start := firstSlot_le (size.slots objectSize)
  have few := fits.slots_le
  have most : maxSlots.toNat = 255 := rfl
  have largest : maxObjectSize.toNat = 4048 := rfl
  have top := aligned.toNat_add_length_le
  rw [UInt64.le_iff_toNat_le, largest] at small
  rw [PageSize.page, Memory.mem_run] at inPage
  have position : address.toNat = view.base.toNat + (address - view.base).toNat := by
    have word := address.toNat_lt
    rw [UInt64.toNat_sub] at inPage ⊢
    omega
  rw [Slab.slotOf_eq_ok_iff (h.sizeNoted ▸ fits.size_pos), Slab.addressOf_eq_ok_iff, h.sizeNoted,
    h.baseNoted, fits.toNat_sub_first, first, UInt64.lt_iff_toNat_lt, most, position]
  constructor
  · rintro ⟨distance, bound⟩
    -- an address before slot 0 is further away than slots go
    have reach : slot.toNat * objectSize.toNat ≤ 254 * 4048 :=
      Nat.mul_le_mul (Nat.le_of_lt_succ bound) small
    have behind : firstSlot (size.slots objectSize) + slot.toNat * objectSize.toNat =
        (address - view.base).toNat := by omega
    refine ⟨?_, bound, by omega⟩
    rcases Nat.lt_or_eq_of_le few with some | all
    · have left := fits.length_le object some
      have within : slot.toNat * objectSize.toNat <
          (size.slots objectSize + 1) * objectSize.toNat := by omega
      exact Nat.le_of_lt_succ (Nat.lt_of_mul_lt_mul_right within)
    · omega
  · rintro ⟨_, bound, sum⟩
    exact ⟨by omega, bound⟩

/-- The byte behind the table is not behind the first one of slot 0, and is that byte exactly if
the number of slots is a multiple of 16. -/
theorem SlabView.Describes.behind_table (h : view.Describes size objectSize memory)
    (fits : size.Fits objectSize) (aligned : size.Aligned view.base) :
    (view.slab.entryAddress (UInt64.ofNat (size.slots objectSize))).toNat ≤
        (view.slab.objectBase memory).toNat ∧
      (view.slab.entryAddress (UInt64.ofNat (size.slots objectSize)) =
          view.slab.objectBase memory ↔
        16 ∣ (UInt64.ofNat (size.slots objectSize)).toNat) := by
  have page : view.slab.base = view.base := rfl
  have count := fits.toNat_slots
  have first := fits.toNat_first aligned
  have bound := (view.base + UInt64.ofNat (firstSlot (size.slots objectSize))).toNat_lt
  have start := le_firstSlot (size.slots objectSize)
  have entry : (view.slab.entryAddress (UInt64.ofNat (size.slots objectSize))).toNat =
      view.base.toNat + 32 + size.slots objectSize := by
    rw [Slab.toNat_entryAddress (by rw [page]; omega), page, count]
  rw [h.baseNoted, ← UInt64.toNat_inj, entry, first, count, firstSlot]
  omega

end Accepted

/-! ## What a free leaves behind -/

/-- The heap that an operation leaves, where it ends or where it stops at a fault. -/
def HeapM.left {σ α : Type} (operation : HeapM σ α) (heap : Heap σ) : Heap σ :=
  match operation heap with
  | .ok _ heap' => heap'
  | .error _ heap' => heap'

/-- Releasing a slot that is out of range, as an operation on memory with a result. -/
theorem Slab.release_error {slab : Slab} {memory : Memory} {slot : UInt64} {fault : Fault}
    (released : slab.release memory slot = .error fault) :
    (do return ((), ← slab.release memory slot) : Except Fault (Unit × Memory)) =
      .error fault := by
  rw [released]
  rfl

section Left

variable {size : PageSize} {σ : Type} [PageSource σ] {heap : Heap σ} {view : CacheView}
  {cache : Cache} {slab : Slab} {slabs : List Slab} {address page slot : UInt64}

/-- A region of memory is left as it was, until a page is given back, if it is. -/
def Heap.KeepsUntilGiven (heap left : Heap σ) (page : UInt64) (region : Set UInt64) : Prop :=
  ∃ memory, Set.EqOn memory.byte heap.memory.byte region ∧
    (left.memory = memory ∨
      ∃ source, PageSource.givePage page heap.source memory = .ok (source, left.memory))

theorem Heap.KeepsUntilGiven.of_eqOn {memory : Memory} {left : Heap σ} {region : Set UInt64}
    (h : ({ heap with memory } : Heap σ).KeepsUntilGiven left page region)
    (same : Set.EqOn memory.byte heap.memory.byte region) :
    heap.KeepsUntilGiven left page region := by
  obtain ⟨memory', same', ended⟩ := h
  exact ⟨memory', same'.trans same, ended⟩

/-- Taking a listed slab off the list writes to links, before its page is given back. -/
theorem Cache.settle_keeps {region : Set UInt64}
    (listed : cache.space.Holds heap.memory slabs) (spread : Slab.Spread slabs)
    (mem : slab ∈ slabs) (links : ∀ {memory}, Slab.Relinks slabs heap.memory memory →
      Set.EqOn memory.byte heap.memory.byte region) :
    heap.KeepsUntilGiven ((cache.settle slab).left heap) slab.base region := by
  by_cases empty : slab.isEmpty heap.memory = true
  · obtain ⟨space, memory, removed, _, relinks⟩ := SpaceList.remove_holds listed spread mem
    refine ⟨memory, links relinks, ?_⟩
    unfold HeapM.left Cache.settle
    rw [bind_ok HeapM.memory_ok, if_pos empty, bind_ok (HeapM.inMemory_ok removed)]
    dsimp only
    rw [if_pos rfl]
    have giving := HeapM.givePage_eq ({ heap with memory } : Heap σ) slab.base
    cases given : PageSource.givePage slab.base heap.source memory with
    | error fault =>
      simp only [given] at giving
      rw [bind_error giving]
      exact .inl rfl
    | ok result =>
      obtain ⟨source, memory'⟩ := result
      simp only [given] at giving
      rw [bind_ok giving]
      refine .inr ⟨source, ?_⟩
      cases checkedSub cache.pages 1 <;> rfl
  · rw [HeapM.left, Cache.settle_kept empty]
    exact ⟨heap.memory, fun _ _ => rfl, .inl rfl⟩

/-- An address without a slot number is refused at once. -/
theorem Cache.free_of_slotOf_error {fault : Fault} (inPage : size.pageOf address = page)
    (found : (Slab.mk page).slotOf heap.memory address = .error fault) :
    cache.free size address heap = .error fault heap := by
  have inSlab := Slab.containing_eq size address
  rw [inPage] at inSlab
  unfold free
  rw [bind_ok (HeapM.check_of_ok inSlab), bind_ok HeapM.memory_ok, found,
    bind_error (HeapM.check_error heap fault)]

/-- A slot that is released is in range, and no slab is linked anew. -/
theorem Slab.next_of_release {memory memory' : Memory}
    (released : slab.release memory slot = .ok memory') :
    slot < maxSlots ∧ slab.next memory' = slab.next memory := by
  unfold release at released
  split at released
  · rename_i bound
    obtain ⟨linked, written, ends⟩ := bind_eq_ok_iff.1 released
    obtain ⟨_, rfl⟩ := slab.writeEntry_eq_ok_iff.1 written
    cases ends
    have header := slab.header_setCounters (slab.setEntry memory slot (slab.head memory))
      slot.toUInt8 (slab.live memory - 1)
    rw [header_setEntry _ _ (UInt64.le_of_lt bound)] at header
    have next := congrArg SlabHeader.next header
    simp only [next_header] at next
    exact ⟨bound, next⟩
  · cases released

/-- In a page that has room for a whole table, the byte of every slot in range is in the page. -/
theorem Slab.entryAddress_mem_page (whole : 288 ≤ size.length) (bound : slot < maxSlots) :
    (Slab.mk page).entryAddress slot ∈ size.page page := by
  have most : maxSlots.toNat = 255 := rfl
  have header : headerSize.toNat = 32 := rfl
  have distance : (Slab.mk page).entryAddress slot - page = headerSize + slot := by
    rw [entryAddress]
    grind
  rw [UInt64.lt_iff_toNat_lt, most] at bound
  rw [PageSize.page, Memory.mem_run, distance, UInt64.toNat_add, header]
  omega

theorem Slab.writes_subset_page (whole : 288 ≤ size.length) (bound : slot < maxSlots) :
    Memory.run page fieldBytes ∪ {(Slab.mk page).entryAddress slot} ⊆ size.page page := by
  have fields : fieldBytes ≤ size.length := Nat.le_trans (by decide) whole
  exact Set.union_subset (Memory.run_mono fields)
    (Set.singleton_subset_iff.2 (entryAddress_mem_page whole bound))

/-- Releasing a slot of one page, be its number in range or not, leaves the links of the slabs
with room. -/
theorem CacheView.Regular.next_of_release (regular : view.Regular size)
    (whole : 288 ≤ size.length) (aligned : size.Aligned page) {memory memory' : Memory}
    (released : (Slab.mk page).release memory slot = .ok memory') :
    ∀ other ∈ view.room.map SlabView.slab, other.next memory' = other.next memory := by
  intro _ listed
  obtain ⟨other, room, rfl⟩ := List.mem_map.1 listed
  obtain ⟨bound, next⟩ := Slab.next_of_release released
  by_cases own : other.base = page
  · rw [SlabView.slab, own, next]
  · -- all that is written is in the page, even behind the table
    have aligned' := regular.aligned _ (mem_pages (List.mem_append_left _ room))
    have apart := (aligned'.disjoint_page aligned own).mono (Memory.run_mono regular.fits.wide)
      (Slab.writes_subset_page whole bound)
    exact Slab.next_congr ((Slab.eqOn_of_release released).mono apart.subset_compl_right)

namespace CacheView.Describes

variable (h : view.Describes size cache heap.memory) (sound : view.Sound size)
  (regular : view.Regular size)

include h sound regular

/-- An address with a slot number leads to the release of that slot, with the slab on the list. -/
theorem free_reaches (held : page ∈ view.pages) (inPage : size.pageOf address = page)
    (found : (Slab.mk page).slotOf heap.memory address = .ok slot) :
    ∃ space memory, cache.free size address heap = (do
        HeapM.inMemory fun memory => return ((), ← (Slab.mk page).release memory slot)
        Cache.settle { cache with space, live := cache.live - 1 } ⟨page⟩) { heap with memory } ∧
      space.Holds memory ((view.reopen page).room.map SlabView.slab) ∧
      Slab.mk page ∈ (view.reopen page).room.map SlabView.slab ∧
      Set.EqOn memory.byte heap.memory.byte (view.notes size)ᶜ := by
  obtain ⟨slab, mem, rfl⟩ := List.mem_map.1 (Multiset.mem_coe.1 held)
  obtain ⟨object, own, same⟩ := regular.exists_object sound mem
  obtain ⟨front, free, back, located⟩ := regular.exists_located own
  rw [← same] at inPage found ⊢
  obtain ⟨space, memory, reaches, holds, _, kept⟩ :=
    Cache.free_reaches located regular sound.free h inPage found
  exact ⟨space, memory, reaches, holds.space, List.mem_map_of_mem located.mem_room_reopen, kept⟩

/-- Freeing any address of a slab's page writes to headers and tables of the cache, and to the
table byte of the slot that the address is taken for. -/
theorem free_keeps (whole : 288 ≤ size.length) (held : page ∈ view.pages)
    (inPage : size.pageOf address = page) {region : Set UInt64}
    (away : region ⊆ (view.notes size)ᶜ)
    (entry : ∀ slot, (Slab.mk page).slotOf heap.memory address = .ok slot → slot < maxSlots →
      (Slab.mk page).entryAddress slot ∉ region) :
    heap.KeepsUntilGiven ((cache.free size address).left heap) page region := by
  cases found : (Slab.mk page).slotOf heap.memory address with
  | error fault =>
    rw [HeapM.left, Cache.free_of_slotOf_error inPage found]
    exact ⟨heap.memory, fun _ _ => rfl, .inl rfl⟩
  | ok slot =>
    obtain ⟨space, memory₁, reaches, holds, listed, same⟩ :=
      h.free_reaches sound regular held inPage found
    refine Heap.KeepsUntilGiven.of_eqOn ?_ (same.mono away)
    unfold HeapM.left
    rw [reaches]
    cases released : (Slab.mk page).release memory₁ slot with
    | error fault =>
      rw [bind_error (HeapM.inMemory_error (Slab.release_error released))]
      exact ⟨memory₁, fun _ _ => rfl, .inl rfl⟩
    | ok memory₂ =>
      rw [bind_ok (HeapM.inMemory_ok (Slab.release_ok released))]
      have regular' : (view.reopen page).Regular size :=
        regular.congr reopen_objectSize slabs_reopen
      have links := regular'.next_of_release whole (regular.aligned page held) released
      have writes : Set.EqOn memory₂.byte memory₁.byte region := by
        refine (Slab.eqOn_of_release released).mono fun byte inside => ?_
        rintro (field | here)
        · exact away inside ⟨page, held, size.fields_subset_notes view.objectSize page field⟩
        · exact entry slot found (Slab.next_of_release released).1 (here ▸ inside)
      refine Heap.KeepsUntilGiven.of_eqOn ?_ writes
      refine Cache.settle_keeps (holds.congr links) regular'.spread_room listed fun relinks => ?_
      refine (eqOn_relinks relinks fun _ onList => ?_).mono away
      obtain ⟨other, room, rfl⟩ := List.mem_map.1 onList
      exact List.mem_map_of_mem (slabs_reopen.mem_iff.1 (List.mem_append_left _ room))

/-- An address without a slot number in range is refused. -/
theorem free_refused (held : page ∈ view.pages) (inPage : size.pageOf address = page)
    (none : ∀ slot, (Slab.mk page).slotOf heap.memory address = .ok slot → ¬ slot < maxSlots) :
    ∃ fault left, cache.free size address heap = .error fault left ∧
      (fault = .invalidObject address ∨ fault = .slotOutOfRange) := by
  obtain ⟨slab, mem, rfl⟩ := List.mem_map.1 (Multiset.mem_coe.1 held)
  have found := (h.slabs slab mem).slotOf_eq_ite regular.fits address
  rw [SlabView.slab] at found
  split at found
  · obtain ⟨space, memory, reaches, _⟩ := h.free_reaches sound regular held inPage found
    have released : (Slab.mk slab.base).release memory _ = .error .slotOutOfRange :=
      if_neg (none _ found)
    refine ⟨.slotOutOfRange, { heap with memory }, ?_, .inr rfl⟩
    rw [reaches, bind_error (HeapM.inMemory_error (Slab.release_error released))]
  · exact ⟨_, heap, Cache.free_of_slotOf_error inPage found, .inl rfl⟩

end CacheView.Describes

end Left

/-! ## Caches of a class -/

section Runs

variable {size : PageSize} {σ : Type} [PageSource σ] {objectSize : UInt64}

/-- What becomes of an address in the page of a slab when it is freed, be it that of a live
object or not. -/
structure Cache.Guards (size : PageSize) (objectSize count page : UInt64) (cache : Cache)
    (heap : Heap (Recorded σ)) (address : UInt64) : Prop where
  /-- Masking finds the slab. -/
  containing : Slab.containing address size.bytes = .ok ⟨page⟩
  /-- The address passes both checks of its slot exactly if it is where one of the slots starts,
  or where the slot after the last one would. -/
  slotOf_iff : ∀ slot, (Slab.mk page).slotOf heap.memory address = .ok slot ∧ slot < maxSlots ↔
    slot ≤ count ∧ slot < maxSlots ∧ (Slab.mk page).addressOf heap.memory slot = .ok address
  /-- If it does not, the free stops at one of them. -/
  refused : (¬ ∃ slot, (Slab.mk page).slotOf heap.memory address = .ok slot ∧ slot < maxSlots) →
    ∃ fault left, cache.free size address heap = .error fault left ∧
      (fault = .invalidObject address ∨ fault = .slotOutOfRange)
  /-- However the free ends, until the page is given back it writes to the headers and tables of
  the slabs that the cache holds, and to the byte behind the table for one address only. -/
  keeps : heap.KeepsUntilGiven ((cache.free size address).left heap) page
    {byte | (∀ other, PageCall.HandedOut other heap.source.calls →
        byte ∉ size.notes objectSize other) ∧
      ¬ (byte = (Slab.mk page).entryAddress count ∧ count < maxSlots ∧
        (Slab.mk page).addressOf heap.memory count = .ok address)}
  /-- The byte behind the table is the first one of slot 0 if the number of slots is a multiple
  of 16, and padding otherwise. -/
  behind : ((Slab.mk page).entryAddress count).toNat ≤
      ((Slab.mk page).objectBase heap.memory).toNat ∧
    ((Slab.mk page).entryAddress count = (Slab.mk page).objectBase heap.memory ↔ 16 ∣ count.toNat)

namespace Cache.ReachableOver

variable {model : PageModel size σ} {heap : Heap (Recorded σ)} {cache : Cache}
  {live : List UInt64} {page address bytes : UInt64} {cls : SizeClass}

/-- **Almost every invalid address is refused.**  In every state of a cache of some class, an
address in the page of a slab that it holds passes the checks only if it is the address of a
slot, or the one where another slot would follow the last.  Every other address stops the free at
one of the two checks.  No free writes behind the table of the slab, except that the one address
leads to the byte behind it. -/
theorem free_guarded (accepted : size.Fits maxObjectSize)
    (request : SizeClass.ofRequest? bytes = some cls)
    (reachable : ReachableOver model cls.size heap cache live)
    (held : PageCall.HandedOut page heap.source.calls) (inPage : address ∈ size.page page) :
    ∃ count, cls.capacity size.bytes = .ok count ∧
      Cache.Guards size cls.size count page cache heap address := by
  obtain ⟨pos, small⟩ := SizeClass.size_of_request request
  have fits := accepted.of_le pos small
  have whole := accepted.whole_table_le
  obtain ⟨view, source, housed⟩ := reachable.exists_housed fits
  have regular := housed.regular fits
  obtain ⟨_, noted, agrees⟩ := housed.source
  have held' : page ∈ view.pages := (agrees.handedOut page).1 (noted ▸ held)
  have aligned := regular.aligned page held'
  have pageOf := (PageSize.mem_page_iff aligned).1 inPage
  obtain ⟨slab, mem, rfl⟩ := List.mem_map.1 (Multiset.mem_coe.1 held')
  have described := housed.describes.slabs slab mem
  rw [housed.objectSize] at described
  have count := fits.toNat_slots
  have passes (slot : UInt64) : (Slab.mk slab.base).slotOf heap.memory address = .ok slot ∧
      slot < maxSlots ↔ slot ≤ UInt64.ofNat (size.slots cls.size) ∧ slot < maxSlots ∧
        (Slab.mk slab.base).addressOf heap.memory slot = .ok address := by
    rw [UInt64.le_iff_toNat_le, count]
    exact described.slotOf_iff fits aligned (dvd_of_rounded cls.rounded) small inPage
  refine ⟨_, fits.capacity_eq, ?containing, passes, ?refused, ?keeps, ?behind⟩
  case containing => rw [Slab.containing_eq, pageOf]
  case refused =>
    intro none
    exact housed.describes.free_refused housed.sound regular held' pageOf
      fun slot found bound => none ⟨slot, found, bound⟩
  case keeps =>
    refine housed.describes.free_keeps housed.sound regular whole held' pageOf ?_ ?_
    · rintro byte ⟨outside, _⟩ ⟨other, holds, inside⟩
      rw [housed.objectSize] at inside
      exact outside other (noted ▸ (agrees.handedOut other).2 holds) inside
    · rintro slot found bound ⟨outside, behind⟩
      obtain ⟨within, _, located⟩ := (passes slot).1 ⟨found, bound⟩
      rw [UInt64.le_iff_toNat_le, count] at within
      rcases Nat.lt_or_eq_of_le within with inRange | last
      · exact outside slab.base held (PageSize.entries_subset_notes inRange fits
          (Memory.self_mem_run Nat.one_pos))
      · have same : slot = UInt64.ofNat (size.slots cls.size) :=
          UInt64.toNat_inj.1 (last.trans count.symm)
        rw [← same] at behind
        exact behind ⟨rfl, bound, located⟩
  case behind => exact described.behind_table fits aligned

/-- A cache of 240 bytes with two live objects, in a page that ends 208 bytes behind its 16
slots.  A free of the address where these bytes begin ends, and writes to the first object. -/
theorem exists_pair (wide : 8 ≤ PageSize.default.length) :
    ∃ (heap heap' : Heap (Recorded (MeteredPool .default))) (cache cache' : Cache),
      ReachableOver (MeteredPool.model wide) 240 heap cache [0x11120, 0x11030] ∧
      PageCall.HandedOut 0x11000 heap.source.calls ∧
      (Slab.mk 0x11000).objectBase heap.memory = 0x11030 ∧
      (Slab.mk 0x11000).objectSize heap.memory = 240 ∧
      cache.free PageSize.default 0x11f30 heap = .ok cache' heap' ∧
      heap.memory.word 0x11030 = 0 ∧ heap'.memory.word 0x11030 = 2 := by
  let opened (live : UInt64) : Cache :=
    { objectSize := 240, space := { head := some ⟨0x11000⟩, length := 1 }, pages := 1, live }
  let requests : HeapM (Recorded (MeteredPool PageSize.default))
      (List (Except AllocError UInt64 × Cache) × Cache × List PageCall × List UInt64) := do
    let first ← ({ objectSize := 240 } : Cache).alloc PageSize.default
    let second ← (opened 1).alloc PageSize.default
    let before ← get
    let freed ← (opened 2).free PageSize.default 0x11f30
    let after ← get
    return ([first, second], freed, before.source.calls,
      [(Slab.mk 0x11000).objectBase before.memory, (Slab.mk 0x11000).objectSize before.memory,
        before.memory.word 0x11030, after.memory.word 0x11030])
  have answers : onPool requests = some ([(.ok 0x11030, opened 1), (.ok 0x11120, opened 2)],
      opened 1, [.take (.ok 0x11000)], [0x11030, 240, 0, 2]) := by
    decide +kernel
  obtain ⟨_, _, starts, ended⟩ := exists_of_onPool wide answers
  obtain ⟨_, _, first, ended⟩ := exists_ok_of_bind ended
  obtain ⟨_, heap, second, ended⟩ := exists_ok_of_bind ended
  rw [bind_ok get_ok] at ended
  obtain ⟨_, heap', freed, ended⟩ := exists_ok_of_bind ended
  rw [bind_ok get_ok] at ended
  have results := (EStateM.Result.ok.inj ended).1
  simp only [Prod.mk.injEq, List.cons.injEq, and_true] at results
  obtain ⟨⟨rfl, rfl⟩, rfl, calls, objectBase, objectSize, before, after⟩ := results
  refine ⟨heap, heap', opened 2, opened 1, ((starts 240).served first).served second, ?_,
    objectBase, objectSize, freed, before, after⟩
  rw [calls]
  exact .inl rfl

/-- An address inside an object of the pair is refused. -/
theorem free_guarded_inside :
    ∃ (wide : 8 ≤ PageSize.default.length) (heap : Heap (Recorded (MeteredPool .default)))
      (cache : Cache) (cls : SizeClass),
      PageSize.default.Fits maxObjectSize ∧ SizeClass.ofRequest? 240 = some cls ∧
      ReachableOver (MeteredPool.model wide) cls.size heap cache [0x11120, 0x11030] ∧
      PageCall.HandedOut 0x11000 heap.source.calls ∧
      0x11031 ∈ PageSize.default.page 0x11000 ∧
      ∃ fault left, cache.free PageSize.default 0x11031 heap = .error fault left ∧
        (fault = .invalidObject 0x11031 ∨ fault = .slotOutOfRange) := by
  have accepted : PageSize.default.Fits maxObjectSize := ⟨by decide, by decide +kernel⟩
  have request : SizeClass.ofRequest? 240 = some ⟨240, by decide⟩ := by decide +kernel
  have inPage : 0x11031 ∈ PageSize.default.page 0x11000 := by
    rw [PageSize.page, Memory.mem_run]
    decide
  obtain ⟨heap, _, cache, _, reachable, held, objectBase, objectSize, _⟩ :=
    exists_pair accepted.wide
  obtain ⟨_, _, guarded⟩ := free_guarded accepted request reachable held inPage
  refine ⟨accepted.wide, heap, cache, _, accepted, request, reachable, held, inPage,
    guarded.refused ?_⟩
  rintro ⟨slot, found, _⟩
  rw [Slab.slotOf_eq_ite (by rw [objectSize]; decide), objectSize, objectBase,
    if_neg (by decide)] at found
  cases found

/-- The address behind the last object of the pair's slab has the number of no slot, and yet a
free of it passes both checks, and writes to an object that is live. -/
theorem free_overwrites :
    PageSize.default.Fits maxObjectSize ∧
    ∃ (wide : 8 ≤ PageSize.default.length) (heap heap' : Heap (Recorded (MeteredPool .default)))
      (cache cache' : Cache) (cls : SizeClass),
      SizeClass.ofRequest? 240 = some cls ∧ cls.capacity PageSize.default.bytes = .ok 16 ∧
      ReachableOver (MeteredPool.model wide) cls.size heap cache [0x11120, 0x11030] ∧
      PageCall.HandedOut 0x11000 heap.source.calls ∧
      0x11f30 ∈ PageSize.default.page 0x11000 ∧
      (Slab.mk 0x11000).slotOf heap.memory 0x11f30 = .ok 16 ∧ 16 < maxSlots ∧
      (¬ ∃ slot < 16, (Slab.mk 0x11000).addressOf heap.memory slot = .ok 0x11f30) ∧
      cache.free PageSize.default 0x11f30 heap = .ok cache' heap' ∧
      heap.memory.word 0x11030 = 0 ∧ heap'.memory.word 0x11030 = 2 := by
  have accepted : PageSize.default.Fits maxObjectSize := ⟨by decide, by decide +kernel⟩
  have request : SizeClass.ofRequest? 240 = some ⟨240, by decide⟩ := by decide +kernel
  obtain ⟨heap, heap', cache, cache', reachable, held, objectBase, objectSize, freed⟩ :=
    exists_pair accepted.wide
  refine ⟨accepted, accepted.wide, heap, heap', cache, cache', _, request, by decide +kernel,
    reachable, held, ?page, ?slot, by decide, ?behind, freed⟩
  case page =>
    rw [PageSize.page, Memory.mem_run]
    decide
  case slot =>
    rw [Slab.slotOf_eq_ok_iff (by rw [objectSize]; decide), objectSize, objectBase]
    decide
  case behind =>
    rintro ⟨slot, bound, located⟩
    rw [Slab.addressOf_eq_ok_iff, objectSize, objectBase] at located
    have measured : 69680 + slot.toNat * 240 = 73520 := located
    have short : slot.toNat < 16 := UInt64.lt_iff_toNat_lt.1 bound
    omega

end Cache.ReachableOver

end Runs

end SlabHeap
