/-!
# Faults

An operation of the heap ends in one of three ways.  It answers, it is refused,
or it stops at a *fault*.  A refusal (`AllocError`) is an ordinary answer: the
caller asked for too much, or no page is left.  A fault means that the heap is
no longer sound, or that an argument was never a valid one, and nothing after
it can be trusted.

The faults are causes and not texts.  `Fault.message` is the only place that
words them.  Arithmetic on 64-bit words never wraps silently, so overflow and a
zero divisor are faults too.
-/

namespace SlabHeap

/-- Why a request was turned down. -/
inductive AllocError where
  /-- The page source has no page left, or nothing can be served yet. -/
  | noMemory
  /-- The size or the region is outside what can be served. -/
  | invalidParam
  deriving DecidableEq, Repr

/-- The name of a refusal. -/
def AllocError.name : AllocError → String
  | .noMemory => "NoMemory"
  | .invalidParam => "InvalidParam"

/-- An address in lower-case hexadecimal, without leading zeros. -/
def hexAddress (address : UInt64) : String :=
  "0x" ++ String.ofList (Nat.toDigits 16 address.toNat)

/-- Why an operation could not be completed. -/
inductive Fault where
  /-- A sum does not fit in its word. -/
  | addOverflow
  /-- A difference is negative. -/
  | subOverflow
  /-- A product does not fit in its word. -/
  | mulOverflow
  /-- A remainder was asked for with divisor zero. -/
  | remainderByZero
  /-- A page handed back is not aligned to the page size. -/
  | unalignedPage (page : UInt64)
  /-- A recorded object size is no multiple of the object alignment. -/
  | unroundedSize
  /-- A slot number does not fit beside the end mark of the free chain. -/
  | slotOutOfRange
  /-- An address is not the start of an object of its slab. -/
  | invalidObject (address : UInt64)
  /-- An object is freed although its cache has handed none out. -/
  | noLiveObjects (objectSize : UInt64)
  /-- A slab listed as having room has no free slot. -/
  | noFreeSlot (slab : UInt64)
  /-- A slab that became empty is not listed as having room. -/
  | slabNotListed (slab objectSize : UInt64)
  /-- The slot meant to hold a cache is not aligned to a word. -/
  | unalignedStorage
  /-- A chain of links does not end. -/
  | endlessChain
  deriving DecidableEq, Repr

/-- The words for a fault. -/
def Fault.message : Fault → String
  | .addOverflow => "attempt to add with overflow"
  | .subOverflow => "attempt to subtract with overflow"
  | .mulOverflow => "attempt to multiply with overflow"
  | .remainderByZero => "attempt to calculate the remainder with a divisor of zero"
  | .unalignedPage page => "unaligned page " ++ hexAddress page
  | .unroundedSize => "assertion failed: size % OBJECT_ALIGN == 0"
  | .slotOutOfRange => "assertion failed: object_index < SLAB_MAX_OBJECTS"
  | .invalidObject address => "invalid object address " ++ hexAddress address
  | .noLiveObjects size =>
      "slab cache: " ++ toString size ++ "-byte cache has no live objects, free list corrupted"
  | .noFreeSlot slab =>
      "slab cache: slab " ++ hexAddress slab ++
        " on the space list has no free slot, free list corrupted"
  | .slabNotListed slab size =>
      "slab cache: slab " ++ hexAddress slab ++ " missing from the " ++ toString size ++
        "-byte space list, free list corrupted"
  | .unalignedStorage =>
      "assertion failed: is_aligned(storage, core::mem::align_of::<SlabCache>())"
  | .endlessChain => "chain of links does not end"

example : hexAddress 0x100000060 = "0x100000060" := by decide +kernel

end SlabHeap
