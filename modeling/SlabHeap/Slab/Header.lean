import SlabHeap.Slab.Field

/-!
# Slabs in memory

Everything about a slab is read from the bytes of its page, and a slab does not
know its capacity.

`Slab.header` collects the fields, and it is through this record and
`Slab.entry` that the writers are understood.  Each writer changes the fields it
names and no table byte, or the table bytes it names and no field.  A write that
meets no field leaves the header (`header_setBytes_of_apart`).

The address of the table is computed each time the table is read or written, and
this fails where the header ends beyond the address space.  `readEntry`,
`writeEntry` and `writeTable` are `entry`, `setEntry` and `setTable` for a slab
that has a table (`Slab.HasTable`), and fail for any other.
-/

namespace SlabHeap

/-- The content of a slab's header. -/
structure SlabHeader where
  /-- The slab linked after this one. -/
  next : Option Slab
  /-- The size of the slab's objects. -/
  objectSize : UInt64
  /-- The address of slot 0. -/
  objectBase : UInt64
  /-- The first free slot, or the end mark. -/
  head : UInt8
  /-- The number of live objects. -/
  live : UInt8
  deriving DecidableEq, Repr

namespace Slab

/-! ## Reading -/

/-- The slab linked after this one. -/
def next (slab : Slab) (memory : Memory) : Option Slab :=
  (Memory.linkOfWord (memory.word (slab.fieldAddress .next))).map Slab.mk

/-- The size of the slab's objects. -/
def objectSize (slab : Slab) (memory : Memory) : UInt64 :=
  memory.word (slab.fieldAddress .objectSize)

/-- The address of slot 0. -/
def objectBase (slab : Slab) (memory : Memory) : UInt64 :=
  memory.word (slab.fieldAddress .objectBase)

/-- The first free slot, or the end mark. -/
def head (slab : Slab) (memory : Memory) : UInt8 := memory.byte (slab.fieldAddress .head)

/-- The number of live objects. -/
def live (slab : Slab) (memory : Memory) : UInt8 := memory.byte (slab.fieldAddress .live)

/-- The whole header. -/
def header (slab : Slab) (memory : Memory) : SlabHeader where
  next := slab.next memory
  objectSize := slab.objectSize memory
  objectBase := slab.objectBase memory
  head := slab.head memory
  live := slab.live memory

/-- The table byte of a slot. -/
def entry (slab : Slab) (memory : Memory) (slot : UInt64) : UInt8 :=
  memory.byte (slab.entryAddress slot)

/-- Whether no slot is free. -/
def isFull (slab : Slab) (memory : Memory) : Bool := slab.head memory == tableEnd

/-- Whether no object is live. -/
def isEmpty (slab : Slab) (memory : Memory) : Bool := slab.live memory == 0

/-! ## Writing -/

/-- Memory after the slab was linked to another one. -/
def setNext (slab : Slab) (memory : Memory) (next : Option Slab) : Memory :=
  memory.setWord (slab.fieldAddress .next) (Memory.wordOfLink (next.map Slab.base))

/-- Memory after the size and the first address of the objects were set. -/
def setObjects (slab : Slab) (memory : Memory) (size base : UInt64) : Memory :=
  (memory.setWord (slab.fieldAddress .objectSize) size).setWord
    (slab.fieldAddress .objectBase) base

/-- Memory after the two counters were set. -/
def setCounters (slab : Slab) (memory : Memory) (head live : UInt8) : Memory :=
  (memory.setByte (slab.fieldAddress .head) head).setByte (slab.fieldAddress .live) live

/-- Memory after the table byte of a slot was set. -/
def setEntry (slab : Slab) (memory : Memory) (slot : UInt64) (value : UInt8) : Memory :=
  memory.setByte (slab.entryAddress slot) value

/-- Memory after the whole header was written: no link, no live object, and slot
0 the first free one. -/
def setFreshHeader (slab : Slab) (memory : Memory) (objectSize objectBase : UInt64) : Memory :=
  slab.setCounters (slab.setObjects (slab.setNext memory none) objectSize objectBase) 0 0

/-- Memory after the table was written from slot 0 on. -/
def setTable (slab : Slab) (memory : Memory) (table : List UInt8) : Memory :=
  memory.setBytes (slab.entryAddress 0) table

/-! ## The table, from its address on -/

/-- Where the table starts. -/
def tableAddress (slab : Slab) : Except Fault UInt64 := checkedAdd slab.base headerSize

/-- Read the table byte of a slot. -/
def readEntry (slab : Slab) (memory : Memory) (slot : UInt64) : Except Fault UInt8 := do
  return memory.byte ((← slab.tableAddress) + slot)

/-- Set the table byte of a slot. -/
def writeEntry (slab : Slab) (memory : Memory) (slot : UInt64) (value : UInt8) :
    Except Fault Memory := do
  return memory.setByte ((← slab.tableAddress) + slot) value

/-- Write the table from slot 0 on. -/
def writeTable (slab : Slab) (memory : Memory) (table : List UInt8) : Except Fault Memory := do
  return memory.setBytes (← slab.tableAddress) table

/-- The table starts within the address space. -/
def HasTable (slab : Slab) : Prop := slab.base.toNat + headerSize.toNat < UInt64.size

/-! ## The header after a write -/

section Laws

variable (slab : Slab) (memory : Memory)

/-- A write that does not meet the fields leaves the header as it is. -/
theorem header_setBytes_of_apart {address : UInt64} {values : List UInt8}
    (h : Memory.Apart address values.length slab.base fieldBytes) :
    slab.header (memory.setBytes address values) = slab.header memory := by
  simp only [header, next, objectSize, objectBase, head, live,
    Memory.word_setBytes_of_apart memory (slab.apart_field h .next),
    Memory.word_setBytes_of_apart memory (slab.apart_field h .objectSize),
    Memory.word_setBytes_of_apart memory (slab.apart_field h .objectBase),
    Memory.byte_setBytes_of_apart memory (slab.apart_field h .head),
    Memory.byte_setBytes_of_apart memory (slab.apart_field h .live)]

/-- Linking a slab changes no other field. -/
theorem header_setNext {next : Option Slab} (h : next ≠ some ⟨0⟩) :
    slab.header (slab.setNext memory next) = { slab.header memory with next } := by
  have link : next.map base ≠ some 0 := by
    intro zero
    obtain ⟨other, same, base⟩ := Option.map_eq_some_iff.1 zero
    exact h (same.trans (congrArg (fun address => some (Slab.mk address)) base))
  have written : (next.map base).map Slab.mk = next := by cases next <;> rfl
  simp only [header, Slab.next, objectSize, objectBase, head, live, setNext,
    Memory.word_setWord_self, Memory.linkOfWord_wordOfLink link, written,
    Memory.word_setWord_of_apart _ (slab.apart_fields .next .objectSize (by decide)),
    Memory.word_setWord_of_apart _ (slab.apart_fields .next .objectBase (by decide)),
    Memory.byte_setWord_of_apart _ (slab.apart_fields .next .head (by decide)),
    Memory.byte_setWord_of_apart _ (slab.apart_fields .next .live (by decide))]

/-- Setting the objects changes no other field. -/
theorem header_setObjects (size base : UInt64) :
    slab.header (slab.setObjects memory size base) =
      { slab.header memory with objectSize := size, objectBase := base } := by
  simp only [header, next, objectSize, objectBase, head, live, setObjects,
    Memory.word_setWord_self,
    Memory.word_setWord_of_apart _ (slab.apart_fields .objectSize .next (by decide)),
    Memory.byte_setWord_of_apart _ (slab.apart_fields .objectSize .head (by decide)),
    Memory.byte_setWord_of_apart _ (slab.apart_fields .objectSize .live (by decide)),
    Memory.word_setWord_of_apart _ (slab.apart_fields .objectBase .next (by decide)),
    Memory.word_setWord_of_apart _ (slab.apart_fields .objectBase .objectSize (by decide)),
    Memory.byte_setWord_of_apart _ (slab.apart_fields .objectBase .head (by decide)),
    Memory.byte_setWord_of_apart _ (slab.apart_fields .objectBase .live (by decide))]

/-- Setting the counters changes no other field. -/
theorem header_setCounters (head live : UInt8) :
    slab.header (slab.setCounters memory head live) = { slab.header memory with head, live } := by
  simp only [header, next, objectSize, objectBase, Slab.head, Slab.live, setCounters,
    Memory.byte_setByte_self,
    Memory.word_setByte_of_apart _ (slab.apart_fields .head .next (by decide)),
    Memory.word_setByte_of_apart _ (slab.apart_fields .head .objectSize (by decide)),
    Memory.word_setByte_of_apart _ (slab.apart_fields .head .objectBase (by decide)),
    Memory.word_setByte_of_apart _ (slab.apart_fields .live .next (by decide)),
    Memory.word_setByte_of_apart _ (slab.apart_fields .live .objectSize (by decide)),
    Memory.word_setByte_of_apart _ (slab.apart_fields .live .objectBase (by decide)),
    Memory.byte_setByte_of_apart _ (slab.apart_fields .live .head (by decide))]

theorem head_setCounters (head live : UInt8) :
    slab.head (slab.setCounters memory head live) = head :=
  congrArg SlabHeader.head (slab.header_setCounters memory head live)

/-- Setting a table byte changes no field. -/
theorem header_setEntry {slot : UInt64} (h : slot ≤ maxSlots) (value : UInt8) :
    slab.header (slab.setEntry memory slot value) = slab.header memory := by
  rw [setEntry, ← Memory.setBytes_singleton]
  exact slab.header_setBytes_of_apart memory (slab.apart_fieldBytes_entry h).symm

/-- A fresh header does not depend on what was there before. -/
theorem header_setFreshHeader (objectSize objectBase : UInt64) :
    slab.header (slab.setFreshHeader memory objectSize objectBase) =
      { next := none, objectSize, objectBase, head := 0, live := 0 } := by
  rw [setFreshHeader, header_setCounters, header_setObjects, header_setNext _ _ (by simp)]

/-- Writing the table changes no field. -/
theorem header_setTable {table : List UInt8} (h : table.length ≤ maxSlots.toNat) :
    slab.header (slab.setTable memory table) = slab.header memory :=
  slab.header_setBytes_of_apart memory (slab.apart_fieldBytes_table h).symm

end Laws

/-! ## The table after a write -/

section Table

variable (slab : Slab) (memory : Memory) {slot : UInt64}

/-- Linking a slab changes no table byte. -/
theorem entry_setNext (h : slot ≤ maxSlots) (next : Option Slab) :
    slab.entry (slab.setNext memory next) slot = slab.entry memory slot :=
  Memory.byte_setWord_of_apart memory (slab.apart_field_entry .next h)

/-- Setting the counters changes no table byte. -/
theorem entry_setCounters (h : slot ≤ maxSlots) (head live : UInt8) :
    slab.entry (slab.setCounters memory head live) slot = slab.entry memory slot := by
  rw [entry, setCounters, Memory.byte_setByte_of_apart _ (slab.apart_field_entry .live h),
    Memory.byte_setByte_of_apart _ (slab.apart_field_entry .head h), entry]

/-- Setting a table byte changes no other one. -/
theorem entry_setEntry (other : UInt64) (value : UInt8) :
    slab.entry (slab.setEntry memory slot value) other =
      if other = slot then value else slab.entry memory other := by
  rw [entry, setEntry, Memory.byte_setByte, entry]
  simp only [entryAddress_inj]

/-- The table that was written is the one that is read. -/
theorem entry_setTable {table : List UInt8} (h : table.length ≤ maxSlots.toNat) (slot : UInt64) :
    slab.entry (slab.setTable memory table) slot =
      (table[slot.toNat]?).getD (slab.entry memory slot) := by
  have bound : table.length ≤ UInt64.size := Nat.le_trans h (by decide)
  have position : slab.base + headerSize + slot - (slab.base + headerSize + 0) = slot := by grind
  rw [entry, setTable, Memory.byte_setBytes _ _ _ _ bound, entryAddress, entryAddress, position,
    entry, entryAddress]

/-- There is an address of the table exactly if it starts within the address space. -/
theorem tableAddress_eq_ok_iff {address : UInt64} :
    slab.tableAddress = .ok address ↔ slab.HasTable ∧ address = slab.base + headerSize := by
  rw [tableAddress, HasTable]
  unfold checkedAdd
  split
  · rename_i within
    simp only [within, true_and, Except.ok.injEq, eq_comm]
  · rename_i beyond
    simp only [beyond, false_and, reduceCtorEq]

variable {slab memory}

theorem HasTable.readEntry_eq (h : slab.HasTable) (slot : UInt64) :
    slab.readEntry memory slot = .ok (slab.entry memory slot) := by
  rw [readEntry, slab.tableAddress_eq_ok_iff.2 ⟨h, rfl⟩]
  rfl

/-- A table byte is written if there is a table, and then it is the one of the slot. -/
theorem writeEntry_eq_ok_iff {value : UInt8} {memory' : Memory} :
    slab.writeEntry memory slot value = .ok memory' ↔
      slab.HasTable ∧ slab.setEntry memory slot value = memory' := by
  simp only [writeEntry, bind_eq_ok_iff, tableAddress_eq_ok_iff, pure, Except.pure,
    Except.ok.injEq]
  constructor
  · rintro ⟨_, ⟨within, rfl⟩, same⟩
    exact ⟨within, same⟩
  · rintro ⟨within, same⟩
    exact ⟨_, ⟨within, rfl⟩, same⟩

theorem HasTable.writeTable_eq (h : slab.HasTable) (table : List UInt8) :
    slab.writeTable memory table = .ok (slab.setTable memory table) := by
  rw [writeTable, slab.tableAddress_eq_ok_iff.2 ⟨h, rfl⟩, setTable, entryAddress, UInt64.add_zero]
  rfl

end Table

end Slab

end SlabHeap
