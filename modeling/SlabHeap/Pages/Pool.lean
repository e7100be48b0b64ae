import SlabHeap.Chain
import SlabHeap.Pages.Region
import SlabHeap.Pages.Source

/-!
# Page pools

A pool hands out the pages of the regions added to it.  Its free pages form a
stack, linked through their own first words, so the pool needs no storage
besides the pages it manages.  The last page given back is the first to be
handed out again.  `PagePool.FreePages` says which pages are on the stack.

A region is pushed from its top, so its pages come out in ascending order.  Each
round of `PagePool.pushDown` goes down by a page, and it is over when the first
page is reached.
-/

namespace SlabHeap

/-- A pool of pages of one size. -/
structure PagePool (size : PageSize) where
  /-- The page on top of the stack of free pages. -/
  top : Option UInt64 := none
  /-- The number of pages ever added. -/
  total : UInt64 := 0
  /-- The number of free pages. -/
  free : UInt64 := 0
  deriving DecidableEq, Repr

namespace PagePool

variable {size : PageSize}

/-- The free page under a free page. -/
def pageAfter (memory : Memory) (page : UInt64) : Option UInt64 :=
  Memory.linkOfWord (memory.word page)

/-- The free pages are exactly the given ones, from the top of the stack. -/
def FreePages (pool : PagePool size) (memory : Memory) (pages : List UInt64) : Prop :=
  Chain (pageAfter memory) pool.top pages

/-- Put a page on the stack of free pages. -/
def push (pool : PagePool size) (page : UInt64) (memory : Memory) :
    Except Fault (PagePool size × Memory) := do
  let free ← checkedAdd pool.free 1
  return ({ pool with top := some page, free }, memory.setWord page (Memory.wordOfLink pool.top))

/-- Take the top page off the stack, if there is one. -/
def pop? (pool : PagePool size) (memory : Memory) :
    Except Fault (Option (UInt64 × PagePool size)) := do
  match pool.top with
  | none => return none
  | some page =>
    let free ← checkedSub pool.free 1
    return some (page, { pool with top := pageAfter memory page, free })

/-- Push the pages from a page boundary down to the first page, the highest first. -/
def pushDown (pool : PagePool size) (memory : Memory) (first boundary : UInt64) :
    Except Fault (PagePool size × Memory) := do
  if first < boundary then
    match _ : checkedSub boundary size.bytes with
    | .error fault => throw fault
    | .ok page =>
      let (pool, memory) ← pool.push page memory
      pool.pushDown memory first page
  else
    return (pool, memory)
termination_by boundary.toNat
decreasing_by
  have sum := checkedSub_eq_ok_iff.1 ‹checkedSub _ _ = _›
  have pos := size.toNat_bytes_pos
  omega

/-- Add the whole pages of a region. -/
def addRegion (pool : PagePool size) (memory : Memory) :
    Region → Except Fault (Except AllocError (PagePool size × Memory))
  | .pastTop | .tooSmall .. => return .error .invalidParam
  | .wholePages first stop => do
    let (pool, memory) ← pool.pushDown memory first stop
    let length ← checkedSub stop first
    let total ← checkedAdd pool.total (length / size.bytes)
    return .ok ({ pool with total }, memory)

/-- The number of pages handed out. -/
def used (pool : PagePool size) : Except Fault UInt64 := checkedSub pool.total pool.free

instance : PageSource (PagePool size) where
  takePage pool memory := do
    match ← pool.pop? memory with
    | none => return (.error .noMemory, pool, memory)
    | some (page, pool) => return (.ok page, pool, memory)
  givePage page pool memory := do
    unless ← isAligned page size.bytes do throw (.unalignedPage page)
    pool.push page memory

namespace FreePages

variable {pool pool' : PagePool size} {memory memory' : Memory} {page : UInt64}
  {pages : List UInt64}

/-- A page pushed is the top of the stack.  Its link must not reach into the
pages below it. -/
theorem push (h : pool.FreePages memory pages) (grounded : pool.top ≠ some 0)
    (apart : ∀ other ∈ pages, Memory.Apart page 8 other 8)
    (pushed : pool.push page memory = .ok (pool', memory')) :
    pool'.FreePages memory' (page :: pages) := by
  obtain ⟨free, _, rest⟩ := bind_eq_ok_iff.1 pushed
  cases rest
  refine ⟨rfl, ?_⟩
  rw [pageAfter, Memory.word_setWord_self, Memory.linkOfWord_wordOfLink grounded]
  refine Chain.congr h fun other mem => ?_
  rw [pageAfter, pageAfter, Memory.word_setWord_of_apart memory (apart other mem)]

/-- A page popped was the top of the stack. -/
theorem pop (h : pool.FreePages memory (page :: pages)) {top : UInt64}
    (popped : pool.pop? memory = .ok (some (top, pool'))) :
    top = page ∧ pool'.FreePages memory pages := by
  have first : pool.top = some page := h.1
  have rest : Chain (pageAfter memory) (pageAfter memory page) pages := h.2
  simp only [pop?, first] at popped
  obtain ⟨free, _, answer⟩ := bind_eq_ok_iff.1 popped
  have same := Prod.mk.inj (Option.some.inj (Except.ok.inj answer))
  have below : pool'.top = pageAfter memory page := by rw [← same.2]
  refine ⟨same.1.symm, ?_⟩
  rw [FreePages, below]
  exact rest

/-- Nothing is popped exactly if no page is free. -/
theorem pop?_eq_none_iff (h : pool.FreePages memory pages) :
    pool.pop? memory = .ok none ↔ pages = [] := by
  cases pages with
  | nil =>
    have empty : pool.top = none := h
    simp [pop?, empty, pure, Except.pure]
  | cons page pages =>
    have first : pool.top = some page := h.1
    simp only [pop?, first, reduceCtorEq, iff_false]
    intro popped
    obtain ⟨free, _, answer⟩ := bind_eq_ok_iff.1 popped
    cases answer

end FreePages

end PagePool

end SlabHeap
