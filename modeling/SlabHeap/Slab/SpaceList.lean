import SlabHeap.Chain
import SlabHeap.Slab.Header

/-!
# Lists of slabs with room

The slabs of a cache that have a free slot are on a list, linked through their
headers.  Slabs are pushed and popped at the front, and a slab that became empty
is taken out wherever it stands.  `SpaceList.Holds` says which slabs are on a
list.

Taking a slab out searches the list for the slab before it.  On a list that ends
the search ends (`Holds.before?_eq`).  Links that were overwritten, or a slab
listed twice, can close the list into a ring, and the search of a ring gives up
only after more slabs than any list has.
-/

namespace SlabHeap

/-- A list of slabs, linked through their headers. -/
structure SpaceList where
  /-- The slab at the front. -/
  head : Option Slab := none
  /-- The number of slabs. -/
  length : UInt64 := 0
  deriving DecidableEq, Repr

namespace SpaceList

/-- Put a slab in front. -/
def pushFront (list : SpaceList) (memory : Memory) (slab : Slab) :
    Except Fault (SpaceList × Memory) := do
  let memory := slab.setNext memory list.head
  let length ← checkedAdd list.length 1
  return ({ head := some slab, length }, memory)

/-- Take the slab at the front off the list. -/
def popFront (list : SpaceList) (memory : Memory) :
    Except Fault ((Option Slab × SpaceList) × Memory) := do
  match list.head with
  | none => return ((none, list), memory)
  | some slab =>
    let length ← checkedSub list.length 1
    return ((some slab, { head := slab.next memory, length }), slab.setNext memory none)

/-- The slab before a given one, searched from a slab on. -/
def before? (memory : Memory) (target : Slab) (first : Option Slab) :
    Except Fault (Option Slab) :=
  findWithin (fun slab => slab.next memory) (fun slab => slab.next memory == some target)
    chainBound first

/-- Take a slab off the list, and say whether it was there. -/
def remove (list : SpaceList) (memory : Memory) (target : Slab) :
    Except Fault ((Bool × SpaceList) × Memory) := do
  if list.head = some target then
    let ((_, list), memory) ← list.popFront memory
    return ((true, list), memory)
  else
    match ← before? memory target list.head with
    | none => return ((false, list), memory)
    | some slab =>
      let memory := slab.setNext memory (target.next memory)
      let memory := target.setNext memory none
      let length ← checkedSub list.length 1
      return ((true, { list with length }), memory)

/-! ## The slabs of a list -/

/-- The list holds exactly the given slabs, in their order. -/
def Holds (list : SpaceList) (memory : Memory) (slabs : List Slab) : Prop :=
  Chain (fun slab => slab.next memory) list.head slabs ∧ list.length.toNat = slabs.length

namespace Holds

variable {list : SpaceList} {memory : Memory} {slabs : List Slab}

/-- No slab is on a list twice. -/
theorem nodup (h : list.Holds memory slabs) : slabs.Nodup := h.1.nodup

/-- On a list that ends, the search finds the first slab linked to the given
one, or none. -/
theorem before?_eq (h : list.Holds memory slabs) (target : Slab) :
    before? memory target list.head =
      .ok (slabs.find? fun slab => slab.next memory == some target) := by
  have fits : slabs.length ≤ chainBound :=
    h.1.length_le_chainBound Slab.base fun a b same => by
      cases a
      cases b
      exact congrArg Slab.mk same
  exact h.1.findWithin_eq _ fits

end Holds

end SpaceList

end SlabHeap
