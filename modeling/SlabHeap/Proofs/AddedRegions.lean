import Mathlib.Data.Set.Card
import SlabHeap.Proofs.PageStack
import SlabHeap.Proofs.Rounding

/-!
# Adding a region to any pool

Which regions a pool accepts, and what it makes of them, does not depend on the pool.  A
region is accepted exactly if it does not start at address zero, ends within the address
space and has a whole page (`Extent.Accepted`): its start and its end are rounded
towards each other, and where the two meet no whole page fits between them.

The pages of an accepted region then come on top of whatever the pool has, also of a stack
that does not end or was overwritten, so nothing is asked of the pool but that its counters
do not run over (`PoolSession.addsWholePages_of_room`).
-/

namespace SlabHeap

namespace Extent

variable {size : PageSize} {extent : Extent}

/-- There is a whole page at an address within the bounds. -/
def Offers (size : PageSize) (extent : Extent) (page : Nat) : Prop :=
  size.length ∣ page ∧ extent.start.toNat ≤ page ∧
    page + size.length ≤ extent.start.toNat + extent.length.toNat

/-- The region is one that a pool takes. -/
structure Accepted (size : PageSize) (extent : Extent) : Prop where
  /-- It does not start at address zero. -/
  start : extent.start ≠ 0
  /-- It ends within the address space. -/
  stop : extent.start.toNat + extent.length.toNat < 2 ^ 64
  /-- It has a whole page. -/
  page : ∃ page, extent.Offers size page

/-- The bounds of an accepted region, rounded towards each other, enclose a page. -/
theorem Accepted.exists_wholePages (accepted : extent.Accepted size) :
    ∃ first stop, Region.ofBounds size extent.start extent.length = .wholePages first stop := by
  obtain ⟨start, fits, page, whole, low, high⟩ := accepted
  have pos := size.length_pos
  have last := (checkedSub_one size.toNat_bytes_pos).2
  rw [size.toNat_bytes_eq_length] at last
  have below : extent.start.toNat + (size.bytes - 1).toNat < 2 ^ 64 := by omega
  obtain ⟨stopped, stopValue⟩ := checkedAdd_of_lt fits
  obtain ⟨reached, reachValue⟩ := checkedAdd_of_lt below
  -- the first page is not above this one, and this one ends not above the last one
  have first : (clearBelow (extent.start + (size.bytes - 1)) size.bytes).toNat ≤ page := by
    have up : extent.start.toNat + (size.bytes - 1).toNat =
        extent.start.toNat + size.length - 1 := by omega
    refine Nat.le_trans (Nat.le_of_eq (size.toNat_pageOf _)) ?_
    rw [reachValue, up]
    exact (isLeast_ceilDiv_mul pos extent.start.toNat).2 ⟨whole, low⟩
  have stop : page + size.length ≤
      (clearBelow (extent.start + extent.length) size.bytes).toNat := by
    refine Nat.le_trans ?_ (Nat.le_of_eq (size.toNat_pageOf _).symm)
    rw [stopValue]
    exact (isGreatest_div_mul pos _).2 ⟨Nat.dvd_add whole (Nat.dvd_refl _), high⟩
  refine ⟨clearBelow (extent.start + (size.bytes - 1)) size.bytes,
    clearBelow (extent.start + extent.length) size.bytes, ?_⟩
  unfold Region.ofBounds
  rw [stopped, reached]
  refine if_neg (not_or.2 ⟨start, fun meets => ?_⟩)
  have order := UInt64.le_iff_toNat_le.1 meets
  omega

theorem accepted_of_wholePages {first stop : UInt64}
    (region : Region.ofBounds size extent.start extent.length = .wholePages first stop) :
    extent.Accepted size := by
  obtain ⟨start, fits, _, _, less⟩ := Region.whole_ofBounds region
  have nonzero : extent.start ≠ 0 := by
    intro zero
    rw [zero, UInt64.toNat_zero] at start
    exact Nat.lt_irrefl 0 start
  have count := Region.pageCount_mul region
  have some : 0 < (extent.pages size).length := by
    rw [pages, region, Region.pages, PageSize.length_pagesBelow]
    refine Nat.pos_of_ne_zero fun none => ?_
    rw [none, Nat.zero_mul, Nat.zero_add] at count
    omega
  obtain ⟨page, mem⟩ := List.exists_mem_of_length_pos some
  obtain ⟨aligned, low, high⟩ := extent.mem_pages mem
  exact ⟨nonzero, fits, page.toNat, size.aligned_iff.1 aligned, low, high⟩

/-- The whole pages within the bounds. -/
def offered (size : PageSize) (extent : Extent) : Set UInt64 :=
  {page | extent.Offers size page.toNat}

/-- The pages of an accepted region are all whole pages within its bounds. -/
theorem Accepted.mem_pages_iff (accepted : extent.Accepted size) {page : UInt64} :
    page ∈ extent.pages size ↔ page ∈ extent.offered size := by
  obtain ⟨first, stop, region⟩ := accepted.exists_wholePages
  rw [pages, Region.mem_pages_ofBounds region, PageSize.aligned_iff]
  rfl

theorem Accepted.length_pages (accepted : extent.Accepted size) :
    (extent.pages size).length = (extent.offered size).ncard := by
  have same : extent.offered size = (extent.pages size).toFinset := by
    ext page
    rw [List.coe_toFinset]
    exact accepted.mem_pages_iff.symm
  rw [same, Set.ncard_coe_finset]
  exact (List.toFinset_card_of_nodup (Region.nodup_pages size _ _)).symm

theorem Accepted.ne_zero (accepted : extent.Accepted size) : 0 ∉ extent.pages size := by
  intro mem
  have low := (extent.mem_pages mem).2.1
  rw [UInt64.toNat_zero, Nat.le_zero] at low
  exact accepted.start (UInt64.toNat_inj.1 low)

end Extent

namespace PoolSession

variable {size : PageSize} {session : PoolSession size} {extent : Extent} {pages : List UInt64}
  {link : Option UInt64} {page : UInt64}

/-! ## Requests to any pool -/

/-- The page on top is taken, and the page that it is linked to is the next one. -/
theorem perform_take (top : session.pool.top = some page) (some : 0 < session.pool.free.toNat) :
    ∃ session', perform .take session = .ok (.page (.ok page)) session' ∧
      session'.memory = session.memory ∧ session'.pool.total = session.pool.total ∧
      session'.pool.top = PagePool.pageAfter session.memory page ∧
      session'.pool.free.toNat + 1 = session.pool.free.toNat := by
  obtain ⟨counted, fewer⟩ := checkedSub_one some
  refine ⟨{ session with pool := { session.pool with
    top := PagePool.pageAfter session.memory page, free := session.pool.free - 1 } },
    perform_ok ?_, ?_⟩
  · simp only [serve, PageSource.takePage, PagePool.pop?, top, counted, bind, Except.bind, pure,
      Except.pure]
  · dsimp only
    exact ⟨rfl, rfl, rfl, fewer⟩

/-- As many pages are taken as the links lead to, in the order of the links. -/
theorem takes_of_leads (session : PoolSession size)
    (leads : Leads (PagePool.pageAfter session.memory) session.pool.top pages link)
    (enough : pages.length ≤ session.pool.free.toNat) :
    ∃ session', (List.replicate pages.length PoolAction.take).mapM perform session =
        .ok (pages.map fun page => .page (.ok page)) session' ∧
      session'.memory = session.memory ∧ session'.pool.total = session.pool.total ∧
      session'.pool.top = link ∧
      session'.pool.free.toNat + pages.length = session.pool.free.toNat := by
  induction pages generalizing session with
  | nil => exact ⟨session, rfl, rfl, rfl, leads, rfl⟩
  | cons page pages ih =>
    obtain ⟨top, rest⟩ := leads
    rw [List.length_cons] at enough
    obtain ⟨session₁, first, memory₁, total₁, top₁, free₁⟩ := perform_take top (by omega)
    rw [← top₁, ← memory₁] at rest
    obtain ⟨session₂, later, memory₂, total₂, top₂, free₂⟩ := ih session₁ rest (by omega)
    refine ⟨session₂, ?_, memory₂.trans memory₁, total₂.trans total₁, top₂, ?_⟩
    · rw [List.length_cons, List.replicate_succ, List.mapM_cons, bind_ok first, bind_ok later]
      rfl
    · rw [List.length_cons]
      omega

/-- A region that is not accepted is refused, and nothing changes. -/
theorem addMemory_refused (refused : ¬ extent.Accepted size) (session : PoolSession size) :
    perform (.addMemory extent.start extent.length) session =
      .ok (.region (.error .invalidParam)) session := by
  rcases region : Region.ofBounds size extent.start extent.length with _ | _ | ⟨first, stop⟩
  · exact perform_addMemory_refused (by rw [region]; rfl)
  · exact perform_addMemory_refused (by rw [region]; rfl)
  · exact absurd (Extent.accepted_of_wholePages region) refused

/-! ## What is added -/

/-- Pages came on top of what a pool had.  They are the next ones to be taken, in ascending order,
and no byte but those of their links was written. -/
structure Gains (session : PoolSession size) (pages : List UInt64)
    (session' : PoolSession size) : Prop where
  /-- The pages are in ascending order, so there is none twice. -/
  ascending : pages.Pairwise (· < ·)
  /-- None of them is at address zero. -/
  nonzero : 0 ∉ pages
  /-- They count as pages of the pool. -/
  total : session'.pool.total.toNat = session.pool.total.toNat + pages.length
  /-- They count as free pages. -/
  free : session'.pool.free.toNat = session.pool.free.toNat + pages.length
  /-- Only their links were written. -/
  same : Set.EqOn session'.memory.byte session.memory.byte (PagePool.links pages)ᶜ
  /-- As many requests are answered with them, and then comes what was on top before. -/
  takes : ∃ session'', (List.replicate pages.length PoolAction.take).mapM perform session' =
      .ok (pages.map fun page => .page (.ok page)) session'' ∧
    session''.memory = session'.memory ∧ session''.pool.total = session'.pool.total ∧
    session''.pool.free = session.pool.free ∧
    (session.pool.top ≠ some 0 → session''.pool.top = session.pool.top)
  /-- They are on top of a stack of other pages. -/
  stack : ∀ free, session.pool.FreePages session.memory free → 0 ∉ free →
    (∀ other ∈ free, Disjoint (Memory.run other 8) (PagePool.links pages)) →
    session'.pool.FreePages session'.memory (pages ++ free)

/-- What is asked of adding a region to a pool: that it takes exactly the whole pages. -/
structure AddsWholePages (session : PoolSession size) (extent : Extent) : Prop where
  /-- The answer depends on the bounds only. -/
  accepted_iff : (∃ session', perform (.addMemory extent.start extent.length) session =
    .ok (.region (.ok ())) session') ↔ extent.Accepted size
  /-- What an accepted region adds are its whole pages. -/
  gains : ∀ session', perform (.addMemory extent.start extent.length) session =
      .ok (.region (.ok ())) session' →
    ∃ pages, (∀ page, page ∈ pages ↔ extent.Offers size page.toNat) ∧
      session.Gains pages session'
  /-- Any other region is refused, and nothing changes. -/
  refused : ¬ extent.Accepted size → perform (.addMemory extent.start extent.length) session =
    .ok (.region (.error .invalidParam)) session

/-- The pages of an accepted region are added to any pool. -/
theorem addMemory_gains (wide : 8 ≤ size.length) (session : PoolSession size)
    (accepted : extent.Accepted size)
    (total : session.pool.total.toNat + (extent.pages size).length < 2 ^ 64)
    (free : session.pool.free.toNat + (extent.pages size).length < 2 ^ 64) :
    ∃ session', perform (.addMemory extent.start extent.length) session =
        .ok (.region (.ok ())) session' ∧ session.Gains (extent.pages size) session' := by
  obtain ⟨first, stop, region⟩ := accepted.exists_wholePages
  obtain ⟨pool', memory', added, total', piles⟩ :=
    PagePool.addRegion_piles session.pool session.memory region total free
  obtain ⟨link, leads, grounded⟩ := piles.leads wide
  obtain ⟨session'', takes, memory'', total'', top'', free''⟩ :=
    takes_of_leads { pool := pool', memory := memory' } leads
      (by rw [piles.free]; exact Nat.le_add_left _ _)
  refine ⟨{ pool := pool', memory := memory' }, perform_addMemory added,
    Region.sorted_pages size _ _, accepted.ne_zero, total', piles.free, piles.same,
    ⟨session'', takes, memory'', total'', ?_, fun some => top''.trans (grounded some)⟩, ?_⟩
  · dsimp only at free''
    rw [piles.free] at free''
    exact UInt64.toNat_inj.1 (Nat.add_right_cancel free'')
  · exact fun free chain nonzero apart => piles.freePages wide chain nonzero apart

/-- **A pool takes exactly the whole pages of a region.**  Whatever the pool and memory are, a
region is accepted exactly if it does not start at address zero, ends within the address space and
has a whole page.  Its whole pages are then the next ones to be taken, in ascending order. -/
theorem addsWholePages_of_room (wide : 8 ≤ size.length) (session : PoolSession size)
    (extent : Extent)
    (room : extent.Accepted size →
      session.pool.total.toNat + (extent.offered size).ncard < 2 ^ 64 ∧
        session.pool.free.toNat + (extent.offered size).ncard < 2 ^ 64) :
    session.AddsWholePages extent := by
  have gains (accepted : extent.Accepted size) : ∃ session',
      perform (.addMemory extent.start extent.length) session =
        .ok (.region (.ok ())) session' ∧ session.Gains (extent.pages size) session' := by
    obtain ⟨total, free⟩ := room accepted
    rw [← accepted.length_pages] at total free
    exact addMemory_gains wide session accepted total free
  have accepted_of_ok {session' : PoolSession size}
      (ends : perform (.addMemory extent.start extent.length) session =
        .ok (.region (.ok ())) session') : extent.Accepted size := by
    by_contra refused
    rw [addMemory_refused refused] at ends
    cases ends
  refine ⟨⟨fun ⟨_, ends⟩ => accepted_of_ok ends, fun accepted => ?_⟩, fun session' ends => ?_,
    fun refused => addMemory_refused refused session⟩
  · obtain ⟨session', ends, _⟩ := gains accepted
    exact ⟨session', ends⟩
  · have accepted := accepted_of_ok ends
    obtain ⟨session₁, ends₁, gained⟩ := gains accepted
    rw [ends] at ends₁
    cases ends₁
    exact ⟨extent.pages size, fun page => accepted.mem_pages_iff, gained⟩

/-- A pool whose free page was overwritten is offered a region that starts and ends in the middle
of a page, one that starts at address zero and one that reaches past the address space. -/
theorem addsWholePages_of_room_overwritten :
    ∃ (session : PoolSession PageSize.default) (extent : Extent),
      session.pool = { top := some 0x5008, total := 7, free := 2 } ∧
      extent = ⟨0x10010, 0x4000⟩ ∧ 8 ≤ PageSize.default.length ∧
      (session.pool.total.toNat + (extent.offered PageSize.default).ncard < 2 ^ 64 ∧
        session.pool.free.toNat + (extent.offered PageSize.default).ncard < 2 ^ 64) ∧
      session.AddsWholePages extent ∧
      (∃ session' pages, perform (.addMemory extent.start extent.length) session =
          .ok (.region (.ok ())) session' ∧
        0x11000 ∈ pages ∧ 0x10000 ∉ pages ∧ session.Gains pages session') ∧
      perform (.addMemory 0 0x4000) session = .ok (.region (.error .invalidParam)) session ∧
      perform (.addMemory 0xffffffffffff0000 0x10000) session =
        .ok (.region (.error .invalidParam)) session := by
  let session : PoolSession PageSize.default :=
    { pool := { top := some 0x5008, total := 7, free := 2 },
      memory := ({} : Memory).fill 0x5000 0xff 64 }
  have wide : 8 ≤ PageSize.default.length := by decide
  let extent : Extent := ⟨0x10010, 0x4000⟩
  have accepted : extent.Accepted PageSize.default :=
    ⟨by decide, by decide, 0x11000, by decide, by decide, by decide⟩
  have three : (extent.offered PageSize.default).ncard = 3 :=
    accepted.length_pages.symm.trans (by decide +kernel)
  have room : session.pool.total.toNat + (extent.offered PageSize.default).ncard < 2 ^ 64 ∧
      session.pool.free.toNat + (extent.offered PageSize.default).ncard < 2 ^ 64 := by
    rw [three]
    decide
  have adds := addsWholePages_of_room wide session extent fun _ => room
  obtain ⟨session', ends⟩ := adds.accepted_iff.2 accepted
  obtain ⟨pages, which, gained⟩ := adds.gains session' ends
  have inside : extent.Offers PageSize.default (0x11000 : UInt64).toNat :=
    ⟨by decide, by decide, by decide⟩
  have outside : ¬ extent.Offers PageSize.default (0x10000 : UInt64).toNat :=
    fun offers => absurd offers.2.1 (by decide)
  have fromZero : ¬ Extent.Accepted PageSize.default ⟨0, 0x4000⟩ :=
    fun accepted => accepted.start rfl
  have pastTop : ¬ Extent.Accepted PageSize.default ⟨0xffffffffffff0000, 0x10000⟩ :=
    fun accepted => absurd accepted.stop (by decide)
  refine ⟨session, extent, rfl, rfl, wide, room, adds, ⟨session', pages, ends,
    (which _).2 inside, fun mem => outside ((which _).1 mem), gained⟩, ?_, ?_⟩
  · exact (addsWholePages_of_room wide session ⟨0, 0x4000⟩
      fun accepted => absurd accepted fromZero).refused fromZero
  · exact (addsWholePages_of_room wide session ⟨0xffffffffffff0000, 0x10000⟩
      fun accepted => absurd accepted pastTop).refused pastTop

end PoolSession

end SlabHeap
