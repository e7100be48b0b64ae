import SlabHeap.Cache.Store
import SlabHeap.Event
import SlabHeap.Pages.Source

/-!
# The heap

What all caches of one page source share: memory, the source, the caches that
live in memory, and the journal of what was reported.

Operations run in `HeapM`.  One that stops at a fault leaves the heap as it was
when the fault arose, so the journal still shows what led to it.  The laws say
what each basic operation makes of a heap, without the monad.
-/

namespace SlabHeap

/-- Memory, a page source and what was built on them. -/
structure Heap (σ : Type) where
  /-- The content of memory. -/
  memory : Memory := {}
  /-- The state of the page source. -/
  source : σ
  /-- The caches that live in memory. -/
  store : CacheStore := {}
  /-- What was reported, the latest first. -/
  journal : List Event := []

/-- Operations on a heap, which may stop at a fault. -/
abbrev HeapM (σ : Type) := EStateM Fault (Heap σ)

namespace HeapM

variable {σ α : Type}

/-- Note an event in the journal. -/
def report (event : Event) : HeapM σ Unit :=
  modify fun heap => { heap with journal := event :: heap.journal }

/-- The content of memory. -/
def memory : HeapM σ Memory := return (← get).memory

/-- Go on with a result, or stop at its fault. -/
def check : Except Fault α → HeapM σ α
  | .ok a => pure a
  | .error fault => throw fault

/-- Run an operation on memory. -/
def inMemory (operation : Memory → Except Fault (α × Memory)) : HeapM σ α := do
  let (a, memory) ← check (operation (← memory))
  modify fun heap => { heap with memory }
  return a

/-- Take a page from the source, or be refused. -/
def takePage [PageSource σ] : HeapM σ (Except AllocError UInt64) := do
  let heap ← get
  let (answer, source, memory) ← check (PageSource.takePage heap.source heap.memory)
  set { heap with source, memory }
  return answer

/-- Give a page back to the source. -/
def givePage [PageSource σ] (page : UInt64) : HeapM σ Unit := do
  let heap ← get
  let (source, memory) ← check (PageSource.givePage page heap.source heap.memory)
  set { heap with source, memory }

/-- The cache stored at an address. -/
def readCache (address : UInt64) : HeapM σ StoredCache := return (← get).store.read address

/-- Store a cache at an address. -/
def writeCache (address : UInt64) (stored : StoredCache) : HeapM σ Unit :=
  modify fun heap => { heap with store := heap.store.write address stored }

/-! ## Laws -/

section Laws

variable (heap : Heap σ)

@[simp] theorem check_ok (a : α) : check (.ok a) heap = .ok a heap := rfl

@[simp] theorem check_error (fault : Fault) :
    check (.error fault : Except Fault α) heap = .error fault heap := rfl

/-- An operation on memory changes memory alone, and nothing if it faults. -/
theorem inMemory_eq (operation : Memory → Except Fault (α × Memory)) :
    inMemory operation heap =
      match operation heap.memory with
      | .ok (a, memory) => .ok a { heap with memory }
      | .error fault => .error fault heap := by
  have started : (get : HeapM σ (Heap σ)) heap = .ok heap heap := rfl
  simp only [inMemory, HeapM.memory, bind, EStateM.bind, started, pure, EStateM.pure]
  cases operation heap.memory <;> rfl

/-- Taking a page changes the source and memory alone, and nothing if it
faults. -/
theorem takePage_eq [PageSource σ] :
    takePage heap =
      match PageSource.takePage heap.source heap.memory with
      | .ok (answer, source, memory) => .ok answer { heap with source, memory }
      | .error fault => .error fault heap := by
  have started : (get : HeapM σ (Heap σ)) heap = .ok heap heap := rfl
  simp only [takePage, bind, EStateM.bind, started]
  cases PageSource.takePage heap.source heap.memory <;> rfl

/-- Giving a page back changes the source and memory alone, and nothing if it
faults. -/
theorem givePage_eq [PageSource σ] (page : UInt64) :
    givePage page heap =
      match PageSource.givePage page heap.source heap.memory with
      | .ok (source, memory) => .ok () { heap with source, memory }
      | .error fault => .error fault heap := by
  have started : (get : HeapM σ (Heap σ)) heap = .ok heap heap := rfl
  simp only [givePage, bind, EStateM.bind, started]
  cases PageSource.givePage page heap.source heap.memory <;> rfl

end Laws

end HeapM

end SlabHeap
