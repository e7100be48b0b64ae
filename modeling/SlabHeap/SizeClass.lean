import SlabHeap.Slab.Layout

/-!
# Size classes

Objects are served in sizes that are multiples of `objectAlign`.  A request is
rounded up to such a size, and the rounded size names its class.  Small requests
are raised to `minObjectSize`, and those above `maxObjectSize` have no class.  A
class also comes back from the object size noted in a slab, where a size that is
no multiple is a fault (`SizeClass.ofRounded`).

Being a multiple is part of the type, so it holds of every class however it was
made.  A class decides its bucket in the table of caches, the remainder of its
size by `bucketCount`.
-/

namespace SlabHeap

/-- The smallest object handed out. -/
def minObjectSize : UInt64 := 32

/-- The largest object handed out. -/
def maxObjectSize : UInt64 := 4048

/-- The number of buckets in a table of caches. -/
def bucketCount : Nat := 17

/-- A rounded object size. -/
structure SizeClass where
  /-- The size of the objects of this class, in bytes. -/
  size : UInt64
  /-- The size is a multiple of the object alignment. -/
  rounded : size % objectAlign = 0
  deriving DecidableEq, Repr

namespace SizeClass

/-- Rounding down to the object alignment leaves a multiple of it. -/
theorem clearBelow_objectAlign_mod (size : UInt64) :
    clearBelow size objectAlign % objectAlign = 0 := by
  have power : objectAlign.toNat.isPowerOfTwo := ⟨4, rfl⟩
  rw [← UInt64.toNat_inj, UInt64.toNat_mod, toNat_clearBelow power, Nat.mul_mod_left]
  rfl

/-- The class that serves a request, if there is one. -/
def ofRequest? (size : UInt64) : Option SizeClass :=
  if maxObjectSize < size then none
  else
    let raised := max size minObjectSize
    some ⟨clearBelow (raised + (objectAlign - 1)) objectAlign, clearBelow_objectAlign_mod _⟩

/-- The class of a size noted in a slab. -/
def ofRounded (size : UInt64) : Except Fault SizeClass :=
  if h : size % objectAlign = 0 then .ok ⟨size, h⟩ else .error .unroundedSize

/-- The bucket of the class. -/
def bucket (cls : SizeClass) : Fin bucketCount :=
  ⟨cls.size.toNat % bucketCount, Nat.mod_lt _ (by decide)⟩

/-- The number of objects of the class that a page holds. -/
def capacity (cls : SizeClass) (pageSize : UInt64) : Except Fault UInt64 :=
  SlabHeap.capacity pageSize cls.size

/-- Classes are ordered by their sizes. -/
instance : Ord SizeClass := ⟨fun a b => compare a.size b.size⟩

/-- The text of the class of a request, for diagnostics. -/
def describe : Option SizeClass → String
  | none => "None"
  | some cls => "Some(SizeClass(" ++ toString cls.size ++ "))"

example : (ofRequest? 33).map size = some 48 := by decide +kernel

example : ofRequest? 4049 = none := by decide +kernel

example : (ofRounded 40).toOption = none := by decide +kernel

end SizeClass

/-! ## Objects that hold caches -/

/-- The size of a cache that is stored in an object. -/
def storedCacheSize : UInt64 := 64

/-- The class of the objects that hold the caches themselves. -/
def bootstrapClass : SizeClass := (SizeClass.ofRequest? storedCacheSize).get (by decide +kernel)

/-- A cache fits in an object of the class. -/
theorem storedCacheSize_le : storedCacheSize ≤ bootstrapClass.size := by decide +kernel

end SlabHeap
