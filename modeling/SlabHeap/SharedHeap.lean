import SlabHeap.Allocator
import SlabHeap.Pages.Metered

/-!
# Shared heaps

Several allocators over one page source, and the callers' view of them.  A
*request* is what a caller can ask for, and an *action* is a request or
something that happens to the page pool behind the allocators.
-/

namespace SlabHeap

/-- Allocators over one heap. -/
structure SharedHeap (σ : Type) (count : Nat) where
  /-- The heap they share. -/
  heap : Heap σ
  /-- The allocators. -/
  allocators : Vector Allocator count := Vector.replicate count {}

/-- What callers ask of `count` allocators. -/
inductive Request (count : Nat) where
  /-- Initialize an allocator. -/
  | init (allocator : Fin count)
  /-- Tear an allocator down. -/
  | teardown (allocator : Fin count)
  /-- Serve an object of a size. -/
  | alloc (allocator : Fin count) (size : UInt64)
  /-- Free the object at an address. -/
  | free (allocator : Fin count) (object : UInt64)
  /-- Write bytes of the caller's own. -/
  | write (address : UInt64) (values : List UInt8)

/-- What happens to allocators over a metered pool. -/
inductive Action (count : Nat) where
  /-- A caller asks for something. -/
  | request (request : Request count)
  /-- A region of memory is added to the pool. -/
  | addMemory (start length : UInt64)
  /-- The pool is told to refuse, or to stop refusing. -/
  | refuse (refusal : Option Refusal)

/-- What an action is answered with. -/
inductive Reply where
  /-- Nothing to say. -/
  | done
  /-- An object, or why there is none. -/
  | object (answer : Except AllocError UInt64)
  /-- Whether the region was accepted. -/
  | region (answer : Except AllocError Unit)

/-- Add the whole pages of a region to a metered pool. -/
def HeapM.addMemory {size : PageSize} (start length : UInt64) :
    HeapM (MeteredPool size) (Except AllocError Unit) := do
  let region := Region.ofBounds size start length
  let heap ← get
  let answer ← check (heap.source.pool.addRegion heap.memory region)
  (region.event? size).forM report
  match answer with
  | .error error => return .error error
  | .ok (pool, memory) =>
    modify fun heap => { heap with memory, source := { heap.source with pool } }
    return .ok ()

/-- Write bytes. -/
def HeapM.write {σ : Type} (address : UInt64) (values : List UInt8) : HeapM σ Unit :=
  modify fun heap => { heap with memory := heap.memory.setBytes address values }

namespace SharedHeap

variable {σ : Type} {count : Nat}

/-- Operations on a shared heap. -/
abbrev Op (σ : Type) (count : Nat) := EStateM Fault (SharedHeap σ count)

/-- Run an operation on the heap. -/
def onHeap {α : Type} (operation : HeapM σ α) : Op σ count α := fun shared =>
  match operation shared.heap with
  | .ok a heap => .ok a { shared with heap }
  | .error fault heap => .error fault { shared with heap }

/-- Run an operation on one of the allocators. -/
def onAllocator {α : Type} (i : Fin count) (operation : Allocator → HeapM σ (α × Allocator)) :
    Op σ count α := do
  let (a, allocator) ← onHeap (operation ((← get).allocators.get i))
  modify fun shared => { shared with allocators := shared.allocators.set i allocator i.isLt }
  return a

/-- Serve a request. -/
def serve [PageSource σ] (size : PageSize) : Request count → Op σ count Reply
  | .init i => onAllocator i fun allocator => return (.done, ← allocator.init)
  | .teardown i => onAllocator i fun allocator => return (.done, ← allocator.teardown size)
  | .alloc i bytes => onAllocator i fun allocator => do
    let (answer, allocator) ← allocator.alloc size bytes
    return (.object answer, allocator)
  | .free i object => onAllocator i fun allocator => return (.done, ← allocator.free size object)
  | .write address values => onHeap do
    HeapM.write address values
    return .done

/-- Perform an action. -/
def perform {size : PageSize} : Action count → Op (MeteredPool size) count Reply
  | .request request => serve size request
  | .addMemory start length => onHeap do return .region (← HeapM.addMemory start length)
  | .refuse refusal => onHeap do
    modify fun heap => { heap with source := { heap.source with refusal } }
    return .done

end SharedHeap

end SlabHeap
