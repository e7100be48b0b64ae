import SlabHeap.Memory

/-!
# Page sources

Slabs are carved from single pages, and whoever supplies the pages is a page
source.  A source has a state of its own and may keep notes in the memory of the
pages it holds, so both operations work on the state and on memory.  What makes
a source a good one is not part of the class.
-/

namespace SlabHeap

/-- A supplier of single pages with states `σ`. -/
class PageSource (σ : Type) where
  /-- Take a page from the source, or be refused. -/
  takePage : σ → Memory → Except Fault (Except AllocError UInt64 × σ × Memory)
  /-- Give a page back to the source. -/
  givePage : UInt64 → σ → Memory → Except Fault (σ × Memory)

end SlabHeap
