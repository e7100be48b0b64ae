import SlabHeap.Proofs.SlabView

/-!
# Slabs of a page are as their views

What a view says of a slab depends on the header and the table only
(`Describes.congr`), and the three operations on slots are the operations on the
stack: `carve_describes`, `take_describes` and `release_describes`.  Each of them
changes the header and the table of its own page at most.  Taking and releasing
leave the link to the next slab, and linking a slab leaves its slots.
-/

namespace SlabHeap

namespace Slab

variable {slab : Slab} {memory memory' : Memory}

/-! ## What the readers depend on -/

/-- The bytes of a slab with some free slots that its cache relies on: the fields, the link
among them only if a slot is free, and the table bytes of the free slots. -/
def relied (slab : Slab) (free : List UInt64) : Set UInt64 :=
  {address | (∃ field : Field, (field = .next → free ≠ []) ∧
      address ∈ Memory.run (slab.fieldAddress field) field.width) ∨
    ∃ slot ∈ free, slab.entryAddress slot = address}

/-- Different bytes lead to different slots. -/
theorem slotOfByte_inj {byte other : UInt8} (same : slotOfByte byte = slotOfByte other) :
    byte = other := by
  unfold slotOfByte at same
  split at same <;> split at same
  · rename_i first second
    exact first.trans second.symm
  · cases same
  · cases same
  · exact UInt8.toNat_inj.1 (congrArg UInt64.toNat (Option.some.inj same))

theorem next_congr (same : Set.EqOn memory'.byte memory.byte (Memory.run slab.base 8)) :
    slab.next memory' = slab.next memory := by
  have start : slab.fieldAddress .next = slab.base := UInt64.add_zero slab.base
  rw [next, next, start, Memory.word_congr same]

end Slab

variable {size : PageSize} {objectSize base slot : UInt64} {free : List UInt64}
  {view : SlabView} {memory memory' : Memory}

/-! ## The header and the table of a page -/

namespace PageSize

theorem fields_subset_notes (size : PageSize) (objectSize base : UInt64) :
    Memory.run base Slab.fieldBytes ⊆ size.notes objectSize base :=
  Memory.run_mono (Nat.le_trans (by decide) (Nat.le_add_right 32 _))

theorem link_subset_notes (size : PageSize) (objectSize base : UInt64) :
    Memory.run base 8 ⊆ size.notes objectSize base :=
  Memory.run_mono (Nat.le_trans (by decide) (Nat.le_add_right 32 _))

theorem entries_subset_notes {count : Nat} (inRange : slot.toNat + count ≤ size.slots objectSize)
    (fits : size.Fits objectSize) :
    Memory.run ((Slab.mk base).entryAddress slot) count ⊆ size.notes objectSize base := by
  have few := fits.slots_le
  have header : headerSize.toNat = 32 := rfl
  have position : (headerSize + slot).toNat = 32 + slot.toNat := by
    rw [UInt64.toNat_add, header]
    omega
  rw [Slab.entryAddress, UInt64.add_assoc]
  refine Memory.run_offset_subset ?_
  rw [position]
  omega

theorem tally_subset_notes (fits : size.Fits objectSize) :
    (Slab.mk base).tally (size.slots objectSize) ⊆ size.notes objectSize base := by
  have fields := size.fields_subset_notes objectSize base
  rintro address ((rfl | rfl) | entry)
  · exact fields ((Slab.mk base).field_subset .head (Memory.self_mem_run Nat.one_pos))
  · exact fields ((Slab.mk base).field_subset .live (Memory.self_mem_run Nat.one_pos))
  · refine entries_subset_notes ?_ fits entry
    rw [UInt64.toNat_zero, Nat.zero_add]

end PageSize

namespace SlabView

/-- What is relied on is in the header and the table. -/
theorem relied_subset_notes (fits : size.Fits objectSize) (sound : view.Sound size objectSize) :
    view.slab.relied view.free ⊆ size.notes objectSize view.base := by
  rintro address (⟨field, _, inside⟩ | ⟨slot, mem, rfl⟩)
  · exact size.fields_subset_notes objectSize view.base (view.slab.field_subset field inside)
  · exact PageSize.entries_subset_notes (sound.inRange slot mem) fits
      (Memory.self_mem_run Nat.one_pos)

theorem lt_maxSlots_of_inRange (fits : size.Fits objectSize)
    (inRange : slot.toNat < size.slots objectSize) : slot < maxSlots := by
  have few := fits.slots_le
  have most : maxSlots.toNat = 255 := rfl
  rw [UInt64.lt_iff_toNat_lt]
  omega

/-- A description depends on the fields and the table bytes of the free slots, and not even
on the link. -/
theorem Describes.congr_relied (h : view.Describes size objectSize memory)
    (same : Set.EqOn memory'.byte memory.byte (view.slab.relied view.free)) :
    view.Describes size objectSize memory' := by
  have field (field : Slab.Field) (other : field ≠ .next) : Set.EqOn memory'.byte memory.byte
      (Memory.run (view.slab.fieldAddress field) field.width) :=
    same.mono fun _ inside => .inl ⟨field, fun link => absurd link other, inside⟩
  have objectSize : view.slab.objectSize memory' = view.slab.objectSize memory :=
    Memory.word_congr (field .objectSize nofun)
  have objectBase : view.slab.objectBase memory' = view.slab.objectBase memory :=
    Memory.word_congr (field .objectBase nofun)
  have head : view.slab.head memory' = view.slab.head memory :=
    field .head nofun (Memory.self_mem_run Nat.one_pos)
  have live : view.slab.live memory' = view.slab.live memory :=
    field .live nofun (Memory.self_mem_run Nat.one_pos)
  refine ⟨?_, ?_, ?_, ?_⟩
  · rw [objectSize, h.sizeNoted]
  · rw [objectBase, h.baseNoted]
  · rw [live, h.liveCount]
  · exact h.freeChain.congr head fun slot mem => same (.inr ⟨slot, mem, rfl⟩)

/-- A description depends on the header and the table only. -/
theorem Describes.congr (h : view.Describes size objectSize memory)
    (fits : size.Fits objectSize) (sound : view.Sound size objectSize)
    (same : Set.EqOn memory'.byte memory.byte (size.notes objectSize view.base)) :
    view.Describes size objectSize memory' :=
  h.congr_relied (same.mono (relied_subset_notes fits sound))

/-- What is known of a slab decides the bytes that it depends on. -/
theorem Describes.eqOn_relied (h : view.Describes size objectSize memory)
    (h' : view.Describes size objectSize memory')
    (linked : view.free ≠ [] → view.slab.next memory' = view.slab.next memory) :
    Set.EqOn memory'.byte memory.byte (view.slab.relied view.free) := by
  rintro address (⟨field, link, inside⟩ | ⟨slot, mem, rfl⟩)
  · cases field with
    | next =>
      have links := Option.map_injective (fun _ _ => congrArg Slab.base) (linked (link rfl))
      exact Memory.eqOn_of_word (Memory.linkOfWord_inj links) inside
    | objectSize => exact Memory.eqOn_of_word (h'.sizeNoted.trans h.sizeNoted.symm) inside
    | objectBase => exact Memory.eqOn_of_word (h'.baseNoted.trans h.baseNoted.symm) inside
    | head =>
      have first := h'.freeChain.head?_eq.trans h.freeChain.head?_eq.symm
      exact Memory.eqOn_of_byte (Slab.slotOfByte_inj first) inside
    | live =>
      have counted := Nat.add_right_cancel (h'.liveCount.trans h.liveCount.symm)
      exact Memory.eqOn_of_byte (UInt8.toNat_inj.1 counted) inside
  · exact Slab.slotOfByte_inj (h.freeChain.next_eq h'.freeChain slot mem)

/-- A slab is full exactly if no slot is free. -/
theorem Describes.isFull_iff (h : view.Describes size objectSize memory) :
    view.slab.isFull memory = true ↔ view.free = [] := h.freeChain.isFull_iff

/-- A slab is empty exactly if all slots are free. -/
theorem Describes.isEmpty_iff (h : view.Describes size objectSize memory) :
    view.slab.isEmpty memory = true ↔ view.free.length = size.slots objectSize := by
  have count := h.liveCount
  rw [Slab.isEmpty, beq_iff_eq, ← UInt8.toNat_inj, UInt8.toNat_zero]
  omega

/-- Linking a slab leaves what is known of its slots. -/
theorem Describes.setNext (h : view.Describes size objectSize memory)
    (fits : size.Fits objectSize) (sound : view.Sound size objectSize) {next : Option Slab}
    (nonzero : next ≠ some ⟨0⟩) :
    view.Describes size objectSize (view.slab.setNext memory next) := by
  have header := view.slab.header_setNext memory nonzero
  have objectSize := congrArg SlabHeader.objectSize header
  have objectBase := congrArg SlabHeader.objectBase header
  have live := congrArg SlabHeader.live header
  have head := congrArg SlabHeader.head header
  simp only [Slab.objectSize_header, Slab.objectBase_header, Slab.live_header,
    Slab.head_header] at objectSize objectBase live head
  refine ⟨?_, ?_, ?_, ?_⟩
  · rw [objectSize, h.sizeNoted]
  · rw [objectBase, h.baseNoted]
  · rw [live, h.liveCount]
  · refine h.freeChain.congr head ?_
    intro slot mem
    exact view.slab.entry_setNext memory
      (UInt64.le_of_lt (lt_maxSlots_of_inRange fits (sound.inRange slot mem))) next

/-- A page in which objects fit ends behind its table. -/
theorem hasTable (fits : size.Fits objectSize) (aligned : size.Aligned view.base) :
    view.slab.HasTable := by
  have page : view.slab.base = view.base := rfl
  have bodies := Nat.mul_pos fits.slots_pos fits.size_pos
  have stop := fits.end_le
  have top := aligned.toNat_add_length_le
  have start : view.slab.base.toNat + firstSlot (size.slots objectSize) < 2 ^ 64 := by
    rw [page]
    omega
  exact Slab.hasTable_of_firstSlot_lt start

/-- What is described is a stack of free slots. -/
theorem Describes.toStacks (h : view.Describes size objectSize memory)
    (fits : size.Fits objectSize) (aligned : size.Aligned view.base)
    (sound : view.Sound size objectSize) :
    view.slab.Stacks memory (size.slots objectSize) view.free :=
  ⟨hasTable fits aligned, h.freeChain, sound.inRange, h.liveCount⟩

/-- A stack of free slots in a slab with the same layout is described. -/
theorem Describes.of_stacks (h : (SlabView.mk base free).Describes size objectSize memory)
    {free' : List UInt64} (stacked : (Slab.mk base).Stacks memory' (size.slots objectSize) free')
    (same : (Slab.mk base).SameLayout (size.slots objectSize) memory memory') :
    (SlabView.mk base free').Describes size objectSize memory' :=
  ⟨same.objectSize.trans h.sizeNoted, same.objectBase.trans h.baseNoted, stacked.count,
    stacked.chain⟩

end SlabView

/-! ## Carving a page -/

/-- A carved page has all its slots free. -/
theorem carve_describes (fits : size.Fits objectSize) (aligned : size.Aligned base)
    (memory : Memory) :
    ∃ memory', (Slab.mk base).carve memory objectSize size.bytes =
        .ok (UInt64.ofNat (size.slots objectSize), memory') ∧
      (SlabView.fresh size objectSize base).Describes size objectSize memory' ∧
      Set.EqOn memory'.byte memory.byte (size.notes objectSize base)ᶜ := by
  have pos := fits.slots_pos
  have stop := fits.end_le
  have top := aligned.toNat_add_length_le
  have bodies := Nat.mul_pos pos fits.size_pos
  have value := fits.toNat_slots
  have some : UInt64.ofNat (size.slots objectSize) ≠ 0 := by
    intro zero
    rw [zero, UInt64.toNat_zero] at value
    omega
  have start : (Slab.mk base).base.toNat + firstSlot (UInt64.ofNat (size.slots objectSize)).toNat <
      2 ^ 64 := by
    have page : (Slab.mk base).base = base := rfl
    rw [value, page]
    omega
  obtain ⟨memory', carved, _, noted, noted', stacked, same⟩ :=
    Slab.carve_stacks fits.capacity_eq some start memory
  rw [value] at noted' stacked same
  refine ⟨memory', carved, ⟨noted, noted', stacked.count, stacked.chain⟩, same.mono ?_⟩
  refine Set.compl_subset_compl.2 (Set.union_subset (size.fields_subset_notes objectSize base) ?_)
  refine PageSize.entries_subset_notes ?_ fits
  rw [UInt64.toNat_zero, Nat.zero_add]

/-! ## Taking a slot -/

/-- The address of a slot is computed without overflow. -/
theorem SlabView.Describes.addressOf_eq (h : view.Describes size objectSize memory)
    (fits : size.Fits objectSize) (aligned : size.Aligned view.base)
    (inRange : slot.toNat < size.slots objectSize) :
    view.slab.addressOf memory slot = .ok (size.slotAddress objectSize view.base slot) := by
  rw [Slab.addressOf_eq_ok_iff, h.sizeNoted, h.baseNoted, fits.toNat_first aligned,
    fits.toNat_slotAddress aligned inRange, Nat.add_assoc]

/-- Taking a slot hands out the top of the stack. -/
theorem take_describes (fits : size.Fits objectSize) (aligned : size.Aligned base)
    (sound : (SlabView.mk base (slot :: free)).Sound size objectSize)
    (h : (SlabView.mk base (slot :: free)).Describes size objectSize memory) :
    ∃ memory', (Slab.mk base).take memory =
        .ok (some (size.slotAddress objectSize base slot), memory') ∧
      (SlabView.mk base free).Describes size objectSize memory' ∧
      (Slab.mk base).next memory' = (Slab.mk base).next memory ∧
      Set.EqOn memory'.byte memory.byte (size.notes objectSize base)ᶜ := by
  have address := h.addressOf_eq fits aligned (sound.inRange slot List.mem_cons_self)
  obtain ⟨memory', taken, stacked, same⟩ :=
    (h.toStacks fits aligned sound).take fits.slots_le address
  exact ⟨memory', taken, h.of_stacks stacked same, same.next,
    same.outside.mono (Set.compl_subset_compl.2 (PageSize.tally_subset_notes fits))⟩

/-! ## Releasing a slot -/

/-- The slot at an address is the distance from slot 0 as a multiple of the object size. -/
theorem Slab.slotOf_eq_ite {slab : Slab} (pos : 0 < (slab.objectSize memory).toNat)
    (address : UInt64) :
    slab.slotOf memory address =
      if (address - slab.objectBase memory).toNat % (slab.objectSize memory).toNat = 0
      then .ok ((address - slab.objectBase memory) / slab.objectSize memory)
      else .error (.invalidObject address) := by
  have nonzero : slab.objectSize memory ≠ 0 := by
    intro zero
    rw [zero] at pos
    exact absurd pos (Nat.lt_irrefl 0)
  simp only [Slab.slotOf, checkedMod, if_neg nonzero, bind, Except.bind]
  simp only [← UInt64.toNat_inj, UInt64.toNat_mod, UInt64.toNat_zero]
  rfl

/-- An address has the slot number that measures its distance from slot 0. -/
theorem Slab.slotOf_eq_ok_iff {slab : Slab} {address : UInt64}
    (pos : 0 < (slab.objectSize memory).toNat) :
    slab.slotOf memory address = .ok slot ↔
      slot.toNat * (slab.objectSize memory).toNat =
        (address - slab.objectBase memory).toNat := by
  rw [slotOf_eq_ite pos]
  constructor
  · intro answer
    split at answer
    · rename_i multiple
      cases answer
      rw [UInt64.toNat_div]
      exact Nat.div_mul_cancel (Nat.dvd_of_mod_eq_zero multiple)
    · cases answer
  · intro distance
    rw [← distance, if_pos (Nat.mul_mod_left _ _), Except.ok.injEq, ← UInt64.toNat_inj,
      UInt64.toNat_div, ← distance, Nat.mul_div_cancel _ pos]

/-- The slot at an address, in the terms of the view. -/
theorem SlabView.Describes.slotOf_eq_ite (h : view.Describes size objectSize memory)
    (fits : size.Fits objectSize) (address : UInt64) :
    view.slab.slotOf memory address =
      if (address - (view.base + UInt64.ofNat (firstSlot (size.slots objectSize)))).toNat %
        objectSize.toNat = 0
      then .ok ((address - (view.base + UInt64.ofNat (firstSlot (size.slots objectSize)))) /
        objectSize)
      else .error (.invalidObject address) := by
  have pos := fits.size_pos
  rw [← h.sizeNoted] at pos
  rw [Slab.slotOf_eq_ite pos, h.sizeNoted, h.baseNoted]

/-- The slot at an address is found from the address. -/
theorem SlabView.Describes.slotOf_eq (h : view.Describes size objectSize memory)
    (fits : size.Fits objectSize) (inRange : slot.toNat < size.slots objectSize) :
    view.slab.slotOf memory (size.slotAddress objectSize view.base slot) = .ok slot := by
  rw [Slab.slotOf_eq_ok_iff (h.sizeNoted ▸ fits.size_pos), h.sizeNoted, h.baseNoted,
    fits.toNat_slotAddress_sub_first view.base inRange]

/-- Releasing a slot puts it on top of the stack. -/
theorem release_describes (fits : size.Fits objectSize) (aligned : size.Aligned base)
    (sound : (SlabView.mk base free).Sound size objectSize)
    (inRange : slot.toNat < size.slots objectSize) (live : slot ∉ free)
    (h : (SlabView.mk base free).Describes size objectSize memory) :
    ∃ memory', (Slab.mk base).release memory slot = .ok memory' ∧
      (SlabView.mk base (slot :: free)).Describes size objectSize memory' ∧
      (Slab.mk base).next memory' = (Slab.mk base).next memory ∧
      Set.EqOn memory'.byte memory.byte (size.notes objectSize base)ᶜ := by
  obtain ⟨memory', released, stacked, same⟩ :=
    (h.toStacks fits aligned sound).release fits.slots_le inRange live
  exact ⟨memory', released, h.of_stacks stacked same, same.next,
    same.outside.mono (Set.compl_subset_compl.2 (PageSize.tally_subset_notes fits))⟩

end SlabHeap
