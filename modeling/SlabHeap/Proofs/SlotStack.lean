import Mathlib.Data.List.Nodup
import SlabHeap.Slab.Slots
import SlabHeap.Proofs.Capacity
import SlabHeap.Proofs.Runs

/-!
# The free slots of a slab are a stack

`Slab.Stacks` says that the free chain of a slab has slots below a number, and that the live
count has the others.  Then taking hands out the slot on top (`Stacks.take`) and releasing puts
one there (`Stacks.release`), and neither stops at a fault.  The counter is a byte, and there are
at most as many slots as a byte can count.

Both write to the counters and the table and leave the rest of the header (`SameLayout`).
A slab that was carved has its slots in order (`carve_stacks`).  Nothing is asked of the size of
the page or the size of the objects here, and of the address of the slab only that the table
starts within the address space.
-/

namespace SlabHeap

namespace Slab

variable {slab : Slab} {memory memory' memory'' : Memory} {slot : UInt64} {free : List UInt64}
  {slots : Nat}

@[simp] theorem next_header : (slab.header memory).next = slab.next memory := by
  simp only [header]

@[simp] theorem objectSize_header :
    (slab.header memory).objectSize = slab.objectSize memory := by
  simp only [header]

@[simp] theorem objectBase_header :
    (slab.header memory).objectBase = slab.objectBase memory := by
  simp only [header]

@[simp] theorem head_header : (slab.header memory).head = slab.head memory := by
  simp only [header]

@[simp] theorem live_header : (slab.header memory).live = slab.live memory := by
  simp only [header]

/-! ## What the writers change -/

theorem field_subset (slab : Slab) (field : Field) :
    Memory.run (slab.fieldAddress field) field.width ⊆ Memory.run slab.base fieldBytes :=
  Memory.run_offset_subset field.offset_add_width_le

theorem eqOn_setField (memory : Memory) (field : Field) {values : List UInt8}
    (width : values.length = field.width) :
    Set.EqOn (memory.setBytes (slab.fieldAddress field) values).byte memory.byte
      (Memory.run slab.base fieldBytes)ᶜ := by
  refine (Memory.eqOn_setBytes _ _ _).mono (Set.compl_subset_compl.2 ?_)
  rw [width]
  exact field_subset slab field

/-- Linking a slab changes its link only. -/
theorem eqOn_setNext (slab : Slab) (memory : Memory) (next : Option Slab) :
    Set.EqOn (slab.setNext memory next).byte memory.byte (Memory.run slab.base 8)ᶜ := by
  have start : slab.fieldAddress .next = slab.base := UInt64.add_zero slab.base
  rw [setNext, start]
  exact Memory.eqOn_setWord _ _ _

theorem eqOn_setObjects (slab : Slab) (memory : Memory) (size base : UInt64) :
    Set.EqOn (slab.setObjects memory size base).byte memory.byte
      (Memory.run slab.base fieldBytes)ᶜ :=
  (eqOn_setField _ .objectBase rfl).trans (eqOn_setField _ .objectSize rfl)

theorem eqOn_setCounters (slab : Slab) (memory : Memory) (head live : UInt8) :
    Set.EqOn (slab.setCounters memory head live).byte memory.byte
      (Memory.run slab.base fieldBytes)ᶜ := by
  rw [setCounters, ← Memory.setBytes_singleton, ← Memory.setBytes_singleton]
  exact (eqOn_setField _ .live rfl).trans (eqOn_setField _ .head rfl)

theorem eqOn_setEntry (slab : Slab) (memory : Memory) (slot : UInt64) (value : UInt8) :
    Set.EqOn (slab.setEntry memory slot value).byte memory.byte
      (Memory.run (slab.entryAddress slot) 1)ᶜ :=
  Memory.eqOn_setByte _ _ _

theorem eqOn_setFreshHeader (slab : Slab) (memory : Memory) (objectSize objectBase : UInt64) :
    Set.EqOn (slab.setFreshHeader memory objectSize objectBase).byte memory.byte
      (Memory.run slab.base fieldBytes)ᶜ := by
  have short : (8 : Nat) ≤ fieldBytes := by decide
  exact ((eqOn_setCounters slab _ _ _).trans (eqOn_setObjects slab _ _ _)).trans
    ((eqOn_setNext slab _ _).mono (Set.compl_subset_compl.2 (Memory.run_mono short)))

/-! ## The addresses of slots -/

/-- The address of a slot is as far behind slot 0 as its number says, and there is one exactly if
that is an address. -/
theorem addressOf_eq_ok_iff {address : UInt64} : slab.addressOf memory slot = .ok address ↔
    (slab.objectBase memory).toNat + slot.toNat * (slab.objectSize memory).toNat =
      address.toNat := by
  simp only [addressOf, bind_eq_ok_iff, checkedMul_eq_ok_iff, checkedAdd_eq_ok_iff]
  constructor
  · rintro ⟨length, product, sum⟩
    rw [product, sum]
  · intro sum
    have bound := address.toNat_lt
    have product : (slot * slab.objectSize memory).toNat =
        slot.toNat * (slab.objectSize memory).toNat := by
      rw [UInt64.toNat_mul, Nat.mod_eq_of_lt (by omega)]
    exact ⟨slot * slab.objectSize memory, product.symm, by rw [product, sum]⟩

/-! ## What is left alone -/

/-- The bytes that taking and releasing slots may change: the first free slot, the live count and
the table. -/
def tally (slab : Slab) (slots : Nat) : Set UInt64 :=
  {slab.fieldAddress .head, slab.fieldAddress .live} ∪ Memory.run (slab.entryAddress 0) slots

/-- The slab has the same link and the same objects, and memory differs in its counters and its
table at most. -/
structure SameLayout (slab : Slab) (slots : Nat) (memory memory' : Memory) : Prop where
  next : slab.next memory' = slab.next memory
  objectSize : slab.objectSize memory' = slab.objectSize memory
  objectBase : slab.objectBase memory' = slab.objectBase memory
  outside : Set.EqOn memory'.byte memory.byte (slab.tally slots)ᶜ

namespace SameLayout

theorem refl (slab : Slab) (slots : Nat) (memory : Memory) :
    slab.SameLayout slots memory memory :=
  ⟨rfl, rfl, rfl, fun _ _ => rfl⟩

theorem trans (first : slab.SameLayout slots memory memory')
    (second : slab.SameLayout slots memory' memory'') : slab.SameLayout slots memory memory'' :=
  ⟨second.next.trans first.next, second.objectSize.trans first.objectSize,
    second.objectBase.trans first.objectBase, second.outside.trans first.outside⟩

/-- A header that differs in the counters at most. -/
theorem of_header {head live : UInt8}
    (header : slab.header memory' = { slab.header memory with head, live })
    (outside : Set.EqOn memory'.byte memory.byte (slab.tally slots)ᶜ) :
    slab.SameLayout slots memory memory' := by
  have next := congrArg SlabHeader.next header
  have objectSize := congrArg SlabHeader.objectSize header
  have objectBase := congrArg SlabHeader.objectBase header
  simp only [next_header, objectSize_header, objectBase_header] at next objectSize objectBase
  exact ⟨next, objectSize, objectBase, outside⟩

/-- Slots have the same addresses. -/
theorem addressOf_eq (same : slab.SameLayout slots memory memory') (slot : UInt64) :
    slab.addressOf memory' slot = slab.addressOf memory slot := by
  rw [addressOf, addressOf, same.objectSize, same.objectBase]

end SameLayout

theorem eqOn_tally_setCounters (slab : Slab) (memory : Memory) (slots : Nat) (head live : UInt8) :
    Set.EqOn (slab.setCounters memory head live).byte memory.byte (slab.tally slots)ᶜ := by
  intro address outside
  have differ : address ≠ slab.fieldAddress .head := by
    rintro rfl
    exact outside (.inl (.inl rfl))
  have differ' : address ≠ slab.fieldAddress .live := by
    rintro rfl
    exact outside (.inl (.inr rfl))
  rw [setCounters, Memory.byte_setByte, if_neg differ', Memory.byte_setByte, if_neg differ]

theorem mem_tally_entry (slab : Slab) (inRange : slot.toNat < slots) :
    slab.entryAddress slot ∈ slab.tally slots := by
  have position : slab.entryAddress slot - slab.entryAddress 0 = slot := by
    rw [entryAddress, entryAddress]
    grind
  right
  rw [Memory.mem_run, position]
  exact inRange

theorem eqOn_tally_setEntry (slab : Slab) (memory : Memory) (inRange : slot.toNat < slots)
    (value : UInt8) :
    Set.EqOn (slab.setEntry memory slot value).byte memory.byte (slab.tally slots)ᶜ := by
  intro address outside
  have differ : address ≠ slab.entryAddress slot := by
    rintro rfl
    exact outside (slab.mem_tally_entry inRange)
  rw [setEntry, Memory.byte_setByte, if_neg differ]

/-! ## Taking and releasing -/

/-- The free slots of a slab with so many slots, the next to be handed out in front.  The other
slots are counted as live. -/
structure Stacks (slab : Slab) (memory : Memory) (slots : Nat) (free : List UInt64) : Prop where
  table : slab.HasTable
  chain : slab.FreeSlots memory free
  inRange : ∀ slot ∈ free, slot.toNat < slots
  count : (slab.live memory).toNat + free.length = slots

/-- Slots below a number, each once, are not more than there are. -/
theorem length_le_of_nodup (nodup : free.Nodup) (inRange : ∀ slot ∈ free, slot.toNat < slots) :
    free.length ≤ slots := by
  have numbers : (free.map UInt64.toNat).Nodup :=
    List.Nodup.map (fun _ _ same => UInt64.toNat_inj.1 same) nodup
  have below : free.map UInt64.toNat ⊆ List.range slots := by
    intro number mem
    obtain ⟨slot, free, rfl⟩ := List.mem_map.1 mem
    exact List.mem_range.2 (inRange slot free)
  have count := numbers.length_le_of_subset below
  rwa [List.length_map, List.length_range] at count

/-- A slab is full exactly if no slot is free. -/
theorem FreeSlots.isFull_iff (chain : slab.FreeSlots memory free) :
    slab.isFull memory = true ↔ free = [] := by
  rw [isFull, beq_iff_eq]
  constructor
  · intro full
    rw [FreeSlots, freeSlot?, full] at chain
    exact Chain.none_iff.1 chain
  · intro none
    rw [none] at chain
    have first : slotOfByte (slab.head memory) = .none := chain
    unfold slotOfByte at first
    split at first
    · assumption
    · cases first

namespace Stacks

/-- A slab is empty exactly if no slot is counted as live. -/
theorem isEmpty_iff (h : slab.Stacks memory slots free) :
    slab.isEmpty memory = true ↔ free.length = slots := by
  have count := h.count
  rw [isEmpty, beq_iff_eq, ← UInt8.toNat_inj, UInt8.toNat_zero]
  omega

/-- The slot on top is handed out, and counted. -/
theorem take (h : slab.Stacks memory slots (slot :: free)) (few : slots ≤ 255) {address : UInt64}
    (located : slab.addressOf memory slot = .ok address) :
    ∃ memory', slab.take memory = .ok (some address, memory') ∧ slab.Stacks memory' slots free ∧
      slab.SameLayout slots memory memory' := by
  have count := h.count
  rw [List.length_cons] at count
  have first : slab.freeSlot? memory = some slot := h.chain.1
  have one : (1 : UInt8).toNat = 1 := rfl
  have more : (slab.live memory + 1).toNat = (slab.live memory).toNat + 1 := by
    rw [UInt8.toNat_add, one, Nat.mod_eq_of_lt (by omega)]
  have counted : checkedSucc (slab.live memory) = .ok (slab.live memory + 1) :=
    checkedSucc_eq_ok_iff.2 more.symm
  have header := slab.header_setCounters memory (slab.entry memory slot) (slab.live memory + 1)
  have live := congrArg SlabHeader.live header
  simp only [live_header] at live
  refine ⟨slab.setCounters memory (slab.entry memory slot) (slab.live memory + 1), ?_,
    ⟨h.table, h.chain.take _, fun other mem => h.inRange other (.tail _ mem), ?_⟩,
    .of_header header (slab.eqOn_tally_setCounters memory slots _ _)⟩
  · simp only [Slab.take, first, h.table.readEntry_eq, located, counted, bind, Except.bind, pure,
      Except.pure]
  · rw [live, more]
    omega

/-- Where no slot is free none is handed out. -/
theorem take_none (h : slab.Stacks memory slots []) : slab.take memory = .ok (none, memory) := by
  have first : slab.freeSlot? memory = none := h.chain
  simp only [Slab.take, first, pure, Except.pure]

/-- A slot that is not free goes on top, and is no longer counted. -/
theorem release (h : slab.Stacks memory slots free) (few : slots ≤ 255)
    (inRange : slot.toNat < slots) (live : slot ∉ free) :
    ∃ memory', slab.release memory slot = .ok memory' ∧
      slab.Stacks memory' slots (slot :: free) ∧ slab.SameLayout slots memory memory' := by
  have count := h.count
  have below : ∀ other ∈ slot :: free, other.toNat < slots := by
    intro other mem
    cases mem with
    | head => exact inRange
    | tail _ later => exact h.inRange other later
  have room := length_le_of_nodup (List.nodup_cons.2 ⟨live, h.chain.nodup⟩) below
  rw [List.length_cons] at room
  have bound : slot < maxSlots := by
    have most : maxSlots.toNat = 255 := rfl
    rw [UInt64.lt_iff_toNat_lt]
    omega
  have one : (1 : UInt8).toNat = 1 := rfl
  have fewer : (slab.live memory - 1).toNat = (slab.live memory).toNat - 1 := by
    have most := (slab.live memory).toNat_lt
    rw [UInt8.toNat_sub, one]
    omega
  have header := slab.header_setCounters (slab.setEntry memory slot (slab.head memory))
    slot.toUInt8 (slab.live memory - 1)
  rw [header_setEntry _ _ (UInt64.le_of_lt bound)] at header
  have counted := congrArg SlabHeader.live header
  simp only [live_header] at counted
  have linked := slab.writeEntry_eq_ok_iff.2
    ⟨h.table, Eq.refl (slab.setEntry memory slot (slab.head memory))⟩
  refine ⟨slab.setCounters (slab.setEntry memory slot (slab.head memory)) slot.toUInt8
    (slab.live memory - 1), ?_, ⟨h.table, h.chain.release bound live _, below, ?_⟩,
    .of_header header ?_⟩
  · simp only [Slab.release, if_pos bound, linked, bind, Except.bind, pure, Except.pure]
  · rw [counted, fewer, List.length_cons]
    omega
  · exact (slab.eqOn_tally_setCounters _ slots _ _).trans
      (slab.eqOn_tally_setEntry memory inRange _)

end Stacks

end Slab

/-! ## Carving -/

/-- Elements that are numbered, each linked to the next number, are a chain. -/
theorem Chain.of_range' {α : Type} {next : α → Option α} (element : Nat → α) {start count : Nat}
    (step : ∀ i, start ≤ i → i < start + count → next (element i) = some (element (i + 1)))
    (stop : next (element (start + count)) = none) :
    Chain next (some (element start)) ((List.range' start (count + 1)).map element) := by
  induction count generalizing start with
  | zero => exact ⟨rfl, stop⟩
  | succ count ih =>
    refine ⟨rfl, ?_⟩
    rw [step start (Nat.le_refl start) (by omega)]
    refine ih (fun i le less => step i (by omega) (by omega)) ?_
    rw [← stop]
    congr 2
    omega

theorem getElem?_freshTable {slots i : Nat} (h : i + 1 < slots) :
    (freshTable slots)[i]? = some (UInt8.ofNat (i + 1)) := by
  rw [freshTable, List.getElem?_append_left (by simp; omega), List.getElem?_map,
    List.getElem?_range (by omega)]
  rfl

theorem getElem?_freshTable_last (slots : Nat) :
    (freshTable slots)[slots - 1]? = some tableEnd := by
  rw [freshTable, List.getElem?_append_right (by simp)]
  simp

theorem slotOfByte_ofNat {i : Nat} (h : i < 255) :
    Slab.slotOfByte (UInt8.ofNat i) = some (UInt64.ofNat i) := by
  have same : UInt8.ofNat i = (UInt64.ofNat i).toUInt8 := by
    rw [← UInt8.toNat_inj, UInt64.toNat_toUInt8, UInt8.toNat_ofNat', UInt64.toNat_ofNat']
    omega
  have bound : UInt64.ofNat i < maxSlots := by
    have most : maxSlots.toNat = 255 := rfl
    rw [UInt64.lt_iff_toNat_lt, UInt64.toNat_ofNat', most]
    omega
  rw [same, Slab.slotOfByte_toUInt8 bound]

namespace Slab

variable {slab : Slab} {memory : Memory} {slots : Nat}

/-- The slots of a slab, in the order of their addresses. -/
def inOrder (slots : Nat) : List UInt64 := (List.range slots).map UInt64.ofNat

theorem length_inOrder (slots : Nat) : (inOrder slots).length = slots := by
  rw [inOrder, List.length_map, List.length_range]

theorem mem_inOrder (few : slots ≤ 255) {slot : UInt64} :
    slot ∈ inOrder slots ↔ slot.toNat < slots := by
  constructor
  · intro mem
    obtain ⟨number, less, rfl⟩ := List.mem_map.1 mem
    have below := List.mem_range.1 less
    rw [UInt64.toNat_ofNat', Nat.mod_eq_of_lt (by omega)]
    exact below
  · intro less
    exact List.mem_map.2 ⟨slot.toNat, List.mem_range.2 less, UInt64.ofNat_toNat⟩

theorem nodup_inOrder (few : slots ≤ 255) : (inOrder slots).Nodup := by
  refine List.Nodup.map_on ?_ List.nodup_range
  intro i hi j hj same
  have less := List.mem_range.1 hi
  have less' := List.mem_range.1 hj
  have values := congrArg UInt64.toNat same
  rw [UInt64.toNat_ofNat', UInt64.toNat_ofNat', Nat.mod_eq_of_lt (by omega),
    Nat.mod_eq_of_lt (by omega)] at values
  exact values

/-- Behind a header that starts at slot 0 stands the table that links every slot to the next
one. -/
theorem freeSlots_setTable (some : 0 < slots) (few : slots ≤ 255)
    (head : slab.head memory = 0) :
    slab.FreeSlots (slab.setTable memory (freshTable slots)) (inOrder slots) := by
  have most : maxSlots.toNat = 255 := rfl
  have length : (freshTable slots).length = slots := length_freshTable some
  have short : (freshTable slots).length ≤ maxSlots.toNat := by omega
  have first : slab.head (slab.setTable memory (freshTable slots)) = 0 := by
    have header := congrArg SlabHeader.head (slab.header_setTable memory short)
    rwa [head_header, head_header, head] at header
  have entry (i : Nat) (h : i < slots) {byte : UInt8}
      (at_i : (freshTable slots)[i]? = .some byte) :
      slab.slotAfter (slab.setTable memory (freshTable slots)) (UInt64.ofNat i) =
        slotOfByte byte := by
    have number : (UInt64.ofNat i).toNat = i := by
      rw [UInt64.toNat_ofNat', Nat.mod_eq_of_lt (by omega)]
    rw [slotAfter, slab.entry_setTable memory short, number, at_i, Option.getD_some]
  obtain ⟨last, rfl⟩ : ∃ last, slots = last + 1 := ⟨slots - 1, by omega⟩
  have zero : slotOfByte 0 = .some (UInt64.ofNat 0) := rfl
  rw [FreeSlots, freeSlot?, first, zero, inOrder, List.range_eq_range']
  refine Chain.of_range' UInt64.ofNat ?_ ?_
  · intro i _ less
    rw [entry i (by omega) (getElem?_freshTable (by omega)), slotOfByte_ofNat (by omega)]
  · rw [Nat.zero_add, entry last (by omega) (getElem?_freshTable_last (last + 1))]
    rfl

/-- Where slot 0 has an address, so does the table before it. -/
theorem hasTable_of_firstSlot_lt (start : slab.base.toNat + firstSlot slots < 2 ^ 64) :
    slab.HasTable := by
  have header : headerSize.toNat = 32 := rfl
  have words : UInt64.size = 2 ^ 64 := rfl
  have behind := le_firstSlot slots
  rw [HasTable, header, words]
  omega

/-- A slab that is carved has its slots in order, and what was written is its header and its
table.  The address of slot 0 has to be one. -/
theorem carve_stacks {pageSize objectSize slots : UInt64}
    (answer : capacity pageSize objectSize = .ok slots) (some : slots ≠ 0)
    (start : slab.base.toNat + firstSlot slots.toNat < 2 ^ 64) (memory : Memory) :
    ∃ memory', slab.carve memory objectSize pageSize = .ok (slots, memory') ∧
      slab.next memory' = none ∧ slab.objectSize memory' = objectSize ∧
      slab.objectBase memory' = slab.base + UInt64.ofNat (firstSlot slots.toNat) ∧
      slab.Stacks memory' slots.toNat (inOrder slots.toNat) ∧
      Set.EqOn memory'.byte memory.byte
        (Memory.run slab.base fieldBytes ∪ Memory.run (slab.entryAddress 0) slots.toNat)ᶜ := by
  obtain ⟨few, _⟩ := holds_of_capacity answer some
  have most : maxSlots.toNat = 255 := rfl
  have pos : 0 < slots.toNat := by
    refine Nat.pos_of_ne_zero fun zero => some ?_
    rw [← UInt64.toNat_inj, zero, UInt64.toNat_zero]
  have length : (freshTable slots.toNat).length = slots.toNat := length_freshTable pos
  have short : (freshTable slots.toNat).length ≤ maxSlots.toNat := by omega
  have room : checkedAdd slab.base (UInt64.ofNat (firstSlot slots.toNat)) =
      .ok (slab.base + UInt64.ofNat (firstSlot slots.toNat)) := by
    rw [checkedAdd, UInt64.toNat_ofNat', UInt64.size, if_pos]
    omega
  have table : slab.HasTable := hasTable_of_firstSlot_lt start
  generalize slab.base + UInt64.ofNat (firstSlot slots.toNat) = objectBase at room ⊢
  have fresh := slab.header_setFreshHeader memory objectSize objectBase
  have header := slab.header_setTable (slab.setFreshHeader memory objectSize objectBase) short
  rw [fresh] at header
  have next := congrArg SlabHeader.next header
  have noted := congrArg SlabHeader.objectSize header
  have noted' := congrArg SlabHeader.objectBase header
  have live := congrArg SlabHeader.live header
  have head := congrArg SlabHeader.head fresh
  simp only [next_header, objectSize_header, objectBase_header, live_header, head_header]
    at next noted noted' live head
  refine ⟨slab.setTable (slab.setFreshHeader memory objectSize objectBase)
    (freshTable slots.toNat), ?_, next, noted, noted', ⟨table, freeSlots_setTable pos few head,
    fun _ => (mem_inOrder few).1, ?_⟩, ?_⟩
  · simp only [carve, answer, if_neg some, objectsOffset_eq few, room, table.writeTable_eq, bind,
      Except.bind, pure, Except.pure]
  · rw [live, length_inOrder, UInt8.toNat_zero, Nat.zero_add]
  · have table := Memory.eqOn_setBytes (slab.setFreshHeader memory objectSize objectBase)
      (slab.entryAddress 0) (freshTable slots.toNat)
    rw [length] at table
    rw [Set.compl_union]
    exact (table.mono Set.inter_subset_right).trans
      ((slab.eqOn_setFreshHeader memory objectSize objectBase).mono Set.inter_subset_left)

end Slab

end SlabHeap
