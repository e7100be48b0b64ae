import SlabHeap.Chain
import SlabHeap.Slab.Header

/-!
# The slots of a slab

The free slots of a slab form a chain: the header has the first, the table byte
of each has the one after it, and the end mark closes the chain.  `FreeSlots`
says which slots are on it.  The chain is a stack.  `take` removes its first
slot (`FreeSlots.take`) and `release` puts a slot in front
(`FreeSlots.release`), so the slot freed last is handed out first.

Neither checks what it reads.  A slot released twice, or a byte of the slab
overwritten, leaves a chain that no longer says which slots are free, and later
operations work on what the bytes say.
-/

namespace SlabHeap

namespace Slab

/-! ## Free slots -/

/-- The slot that a byte of the free chain leads to. -/
def slotOfByte (byte : UInt8) : Option UInt64 :=
  if byte = tableEnd then none else some byte.toUInt64

/-- The slot that is handed out next. -/
def freeSlot? (slab : Slab) (memory : Memory) : Option UInt64 := slotOfByte (slab.head memory)

/-- The free slot after a free slot. -/
def slotAfter (slab : Slab) (memory : Memory) (slot : UInt64) : Option UInt64 :=
  slotOfByte (slab.entry memory slot)

/-- The free slots of the slab are exactly the given ones, the next to be handed
out in front. -/
def FreeSlots (slab : Slab) (memory : Memory) (slots : List UInt64) : Prop :=
  Chain (slab.slotAfter memory) (slab.freeSlot? memory) slots

/-! ## Operations -/

/-- Make a slab of the page: write the header and a table in which every slot is
free, and answer with the number of slots.  If not one object fits, nothing is
written. -/
def carve (slab : Slab) (memory : Memory) (objectSize pageSize : UInt64) :
    Except Fault (UInt64 × Memory) := do
  let slots ← capacity pageSize objectSize
  if slots = 0 then return (0, memory)
  let objectBase ← checkedAdd slab.base (← objectsOffset slots)
  let memory := slab.setFreshHeader memory objectSize objectBase
  return (slots, ← slab.writeTable memory (freshTable slots.toNat))

/-- The address of a slot. -/
def addressOf (slab : Slab) (memory : Memory) (slot : UInt64) : Except Fault UInt64 := do
  checkedAdd (slab.objectBase memory) (← checkedMul slot (slab.objectSize memory))

/-- The slot that starts at an address.  The distance to slot 0 wraps, so an
address below slot 0 gets a slot number out of range, or none. -/
def slotOf (slab : Slab) (memory : Memory) (address : UInt64) : Except Fault UInt64 := do
  let offset := address - slab.objectBase memory
  let rest ← checkedMod offset (slab.objectSize memory)
  if rest = 0 then return offset / slab.objectSize memory
  else throw (.invalidObject address)

/-- Take the first free slot, and answer with its address. -/
def take (slab : Slab) (memory : Memory) : Except Fault (Option UInt64 × Memory) := do
  match slab.freeSlot? memory with
  | none => return (none, memory)
  | some slot =>
    let after ← slab.readEntry memory slot
    let address ← slab.addressOf memory slot
    let live ← checkedSucc (slab.live memory)
    return (some address, slab.setCounters memory after live)

/-- Put a slot in front of the free slots.  The count of live objects wraps. -/
def release (slab : Slab) (memory : Memory) (slot : UInt64) : Except Fault Memory := do
  unless slot < maxSlots do throw .slotOutOfRange
  let linked ← slab.writeEntry memory slot (slab.head memory)
  return slab.setCounters linked slot.toUInt8 (slab.live memory - 1)

/-! ## Laws -/

/-- A byte leads to a slot that it can tell apart from the end mark. -/
theorem lt_maxSlots_of_slotOfByte {byte : UInt8} {slot : UInt64}
    (h : slotOfByte byte = some slot) : slot < maxSlots := by
  unfold slotOfByte at h
  split at h
  · cases h
  · rename_i other
    cases h
    have bound := byte.toNat_lt
    have differ : byte.toNat ≠ 255 := fun e => other (UInt8.toNat_inj.1 e)
    have last : maxSlots.toNat = 255 := rfl
    rw [UInt64.lt_iff_toNat_lt, UInt8.toNat_toUInt64]
    omega

/-- A slot in range survives being written as a byte. -/
theorem slotOfByte_toUInt8 {slot : UInt64} (h : slot < maxSlots) :
    slotOfByte slot.toUInt8 = some slot := by
  have bound : slot.toNat < 255 := UInt64.lt_iff_toNat_lt.1 h
  have value : slot.toUInt8.toNat = slot.toNat := by
    rw [UInt64.toNat_toUInt8]
    omega
  have differ : slot.toUInt8 ≠ tableEnd := fun e => by
    rw [e] at value
    exact absurd value (Nat.ne_of_gt bound)
  have back : slot.toUInt8.toUInt64 = slot := by
    rw [← UInt64.toNat_inj, UInt8.toNat_toUInt64, value]
  rw [slotOfByte, if_neg differ, back]

namespace FreeSlots

variable {slab : Slab} {memory : Memory} {slot : UInt64} {slots : List UInt64}

/-- Every free slot is in range. -/
theorem lt_maxSlots (h : slab.FreeSlots memory slots) (mem : slot ∈ slots) :
    slot < maxSlots := by
  cases h.linked_of_mem mem with
  | inl first => exact lt_maxSlots_of_slotOfByte first
  | inr found =>
    obtain ⟨before, _, linked⟩ := found
    exact lt_maxSlots_of_slotOfByte linked

/-- The free slots depend on the head and on their own table bytes only. -/
theorem congr {memory' : Memory} (h : slab.FreeSlots memory slots)
    (head : slab.head memory' = slab.head memory)
    (entry : ∀ slot ∈ slots, slab.entry memory' slot = slab.entry memory slot) :
    slab.FreeSlots memory' slots := by
  rw [FreeSlots, freeSlot?, head]
  exact Chain.congr h fun slot mem => by rw [slotAfter, slotAfter, entry slot mem]

/-- Moving the head on removes the first free slot. -/
theorem take (h : slab.FreeSlots memory (slot :: slots)) (live : UInt8) :
    slab.FreeSlots (slab.setCounters memory (slab.entry memory slot) live) slots := by
  have rest : Chain (slab.slotAfter memory) (slab.slotAfter memory slot) slots := h.2
  rw [FreeSlots, freeSlot?, head_setCounters]
  refine Chain.congr rest fun other mem => ?_
  have bound := lt_maxSlots h (List.mem_cons_of_mem slot mem)
  rw [slotAfter, slotAfter, entry_setCounters _ _ (UInt64.le_of_lt bound)]

/-- Linking a slot to the head and moving the head to it puts the slot in front. -/
theorem release (h : slab.FreeSlots memory slots) (bound : slot < maxSlots)
    (taken : slot ∉ slots) (live : UInt8) :
    slab.FreeSlots
      (slab.setCounters (slab.setEntry memory slot (slab.head memory)) slot.toUInt8 live)
      (slot :: slots) := by
  refine ⟨?_, ?_⟩
  · rw [freeSlot?, head_setCounters, slotOfByte_toUInt8 bound]
  · rw [slotAfter, entry_setCounters _ _ (UInt64.le_of_lt bound), entry_setEntry, if_pos rfl]
    refine Chain.congr h fun other mem => ?_
    have differ : other ≠ slot := fun e => taken (e ▸ mem)
    have bound' := lt_maxSlots h mem
    rw [slotAfter, slotAfter, entry_setCounters _ _ (UInt64.le_of_lt bound'), entry_setEntry,
      if_neg differ]

end FreeSlots

end Slab

end SlabHeap
