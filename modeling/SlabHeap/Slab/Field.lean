import SlabHeap.Memory
import SlabHeap.Slab.Layout

/-!
# Where a slab keeps its notes

A slab is known by the address of its page.  The page starts with five fields,
and after the header stands the table, one byte for each slot:

    offset   0      8             16            24      25     32
             next   object size   object base   head    live   table

The bytes between the last field and the table are never used.

The main statements are that nothing overlaps: two fields do not meet
(`Slab.apart_fields`), nor do a field and a table byte
(`Slab.apart_field_entry`), and what does not meet the first `fieldBytes` bytes
meets no field (`Slab.apart_field`).
-/

namespace SlabHeap

/-- A slab, named by the address of its page. -/
structure Slab where
  /-- The address of the page. -/
  base : UInt64
  deriving DecidableEq, Repr

namespace Slab

/-- The fields of a header. -/
inductive Field where
  /-- The link to the slab after this one. -/
  | next
  /-- The size of the slab's objects. -/
  | objectSize
  /-- The address of slot 0. -/
  | objectBase
  /-- The first free slot, or the end mark. -/
  | head
  /-- The number of live objects. -/
  | live
  deriving DecidableEq, Repr

namespace Field

/-- Where the field starts in the header. -/
def offset : Field → UInt64
  | next => 0
  | objectSize => 8
  | objectBase => 16
  | head => 24
  | live => 25

/-- The number of bytes of the field. -/
def width : Field → Nat
  | next | objectSize | objectBase => 8
  | head | live => 1

end Field

/-- The number of bytes that the fields take up together. -/
def fieldBytes : Nat := 26

/-- The slab whose page an address lies in. -/
def containing (address pageSize : UInt64) : Except Fault Slab := do
  return ⟨← alignDown address pageSize⟩

/-- The address of a field. -/
def fieldAddress (slab : Slab) (field : Field) : UInt64 := slab.base + field.offset

/-- The address of the table byte of a slot. -/
def entryAddress (slab : Slab) (slot : UInt64) : UInt64 := slab.base + headerSize + slot

/-! ## Laws -/

theorem Field.width_pos (field : Field) : 0 < field.width := by
  cases field <;> decide

theorem Field.offset_add_width_le (field : Field) :
    field.offset.toNat + field.width ≤ fieldBytes := by
  cases field <;> decide

/-- One of two fields ends before the other one starts. -/
theorem Field.ends_before_or_after {field other : Field} (differ : field ≠ other) :
    field.offset.toNat + field.width ≤ other.offset.toNat ∨
      other.offset.toNat + other.width ≤ field.offset.toNat := by
  revert differ
  cases field <;> cases other <;> decide

variable (slab : Slab)

/-- Two fields do not meet. -/
theorem apart_fields (field other : Field) (differ : field ≠ other) :
    Memory.Apart (slab.fieldAddress field) field.width
      (slab.fieldAddress other) other.width := by
  have pos := field.width_pos
  have pos' := other.width_pos
  have inside := field.offset_add_width_le
  have inside' := other.offset_add_width_le
  have last : fieldBytes = 26 := rfl
  have words : UInt64.size = 2 ^ 64 := rfl
  have distinct : field.offset ≠ other.offset := fun same => by
    cases Field.ends_before_or_after differ <;> rw [same] at * <;> omega
  cases Field.ends_before_or_after differ with
  | inl before => exact Memory.apart_offsets before (by omega) distinct
  | inr after => exact (Memory.apart_offsets after (by omega) distinct.symm).symm

/-- What does not meet the first bytes of the header meets no field. -/
theorem apart_field {address : UInt64} {count : Nat}
    (h : Memory.Apart address count slab.base fieldBytes) (field : Field) :
    Memory.Apart address count (slab.fieldAddress field) field.width :=
  h.of_inside field.offset_add_width_le field.width_pos

/-- The position of a table byte in its slab. -/
theorem toNat_headerSize_add {slot : UInt64} (h : slot ≤ maxSlots) :
    (headerSize + slot).toNat = 32 + slot.toNat := by
  have bound : slot.toNat ≤ 255 := UInt64.le_iff_toNat_le.1 h
  have size : headerSize.toNat = 32 := rfl
  rw [UInt64.toNat_add, size]
  omega

/-- The fields do not meet a table byte. -/
theorem apart_fieldBytes_entry {slot : UInt64} (h : slot ≤ maxSlots) :
    Memory.Apart slab.base fieldBytes (slab.entryAddress slot) 1 := by
  have bound : slot.toNat ≤ 255 := UInt64.le_iff_toNat_le.1 h
  have position := toNat_headerSize_add h
  have last : fieldBytes = 26 := rfl
  have words : UInt64.size = 2 ^ 64 := rfl
  rw [entryAddress, UInt64.add_assoc]
  refine Memory.apart_offset (by omega) (by omega) fun zero => ?_
  rw [zero, UInt64.toNat_zero] at position
  omega

/-- A field does not meet a table byte. -/
theorem apart_field_entry (field : Field) {slot : UInt64} (h : slot ≤ maxSlots) :
    Memory.Apart (slab.fieldAddress field) field.width (slab.entryAddress slot) 1 :=
  (slab.apart_field (slab.apart_fieldBytes_entry h).symm field).symm

/-- The fields do not meet the table. -/
theorem apart_fieldBytes_table {count : Nat} (h : count ≤ maxSlots.toNat) :
    Memory.Apart slab.base fieldBytes (slab.entryAddress 0) count := by
  have bound : maxSlots.toNat = 255 := rfl
  have start : headerSize.toNat = 32 := rfl
  have words : UInt64.size = 2 ^ 64 := rfl
  rw [entryAddress, UInt64.add_zero]
  exact Memory.apart_offset (by decide) (by omega) (by decide)

theorem entryAddress_inj {slot other : UInt64} :
    slab.entryAddress slot = slab.entryAddress other ↔ slot = other :=
  UInt64.add_right_inj _

end Slab

end SlabHeap
