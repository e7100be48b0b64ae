import SlabHeap.SharedHeap
import SlabHeap.Proofs.PoolView
import SlabHeap.Proofs.Rounding

/-!
# The pages of a region

`Region.pages` are the pages that a region offers, in ascending order, and
`Extent.mem_pages` says which they are: the pages that lie within the bounds, if
the region does not start at address zero and ends within the address space.
Adding the region pushes them on whatever a pool has (`PagePool.addRegion_piles`).
`HeapM.addMemory_adds` says that they are then on top of the stack of the pool,
and that nothing is done where the region offers none.

Regions that have no address in common offer different pages
(`Extent.notMem_pages_of_disjoint`).
-/

namespace SlabHeap

/-! ## Pages below an address -/

/-- The given number of pages that lie below an address, in ascending order. -/
def PageSize.pagesBelow (size : PageSize) (stop : UInt64) : Nat → List UInt64
  | 0 => []
  | count + 1 => size.pagesBelow (stop - size.bytes) count ++ [stop - size.bytes]

/-- The pages that a region offers. -/
def Region.pages (size : PageSize) : Region → List UInt64
  | .wholePages first stop => size.pagesBelow stop (pageCount size first stop).toNat
  | _ => []

namespace PageSize

variable {size : PageSize} {stop page : UInt64} {count : Nat}

theorem toNat_sub_bytes (above : size.length ≤ stop.toNat) :
    (stop - size.bytes).toNat + size.length = stop.toNat := by
  have le : size.bytes ≤ stop := by
    rw [UInt64.le_iff_toNat_le, toNat_bytes_eq_length]
    exact above
  rw [UInt64.toNat_sub_of_le _ _ le, toNat_bytes_eq_length, Nat.sub_add_cancel above]

theorem mem_pagesBelow (above : count * size.length ≤ stop.toNat) :
    page ∈ size.pagesBelow stop count ↔
      ∃ i < count, page.toNat + (i + 1) * size.length = stop.toNat := by
  induction count generalizing stop with
  | zero => simp [pagesBelow]
  | succ count ih =>
    rw [Nat.succ_mul] at above
    have step : (stop - size.bytes).toNat + size.length = stop.toNat :=
      toNat_sub_bytes (by omega)
    rw [pagesBelow, List.mem_append, List.mem_singleton, ih (by omega), ← UInt64.toNat_inj]
    constructor
    · rintro (⟨i, less, sum⟩ | last)
      · refine ⟨i + 1, Nat.succ_lt_succ less, ?_⟩
        rw [Nat.succ_mul (i + 1)]
        omega
      · refine ⟨0, Nat.succ_pos count, ?_⟩
        omega
    · rintro ⟨_ | i, less, sum⟩
      · right
        omega
      · left
        refine ⟨i, Nat.lt_of_succ_lt_succ less, ?_⟩
        rw [Nat.succ_mul (i + 1)] at sum
        omega

theorem lt_of_mem_pagesBelow (above : count * size.length ≤ stop.toNat)
    (mem : page ∈ size.pagesBelow stop count) : page < stop := by
  obtain ⟨i, _, sum⟩ := (mem_pagesBelow above).1 mem
  have pos := size.length_pos
  rw [Nat.succ_mul] at sum
  rw [UInt64.lt_iff_toNat_lt]
  omega

theorem aligned_of_mem_pagesBelow (aligned : size.Aligned stop)
    (above : count * size.length ≤ stop.toNat) (mem : page ∈ size.pagesBelow stop count) :
    size.Aligned page := by
  obtain ⟨i, _, sum⟩ := (mem_pagesBelow above).1 mem
  have whole : size.length ∣ page.toNat + (i + 1) * size.length := by
    rw [sum]
    exact size.aligned_iff.1 aligned
  exact size.aligned_iff.2 ((Nat.dvd_add_left (Nat.dvd_mul_left _ _)).1 whole)

theorem sorted_pagesBelow (above : count * size.length ≤ stop.toNat) :
    (size.pagesBelow stop count).Pairwise (· < ·) := by
  induction count generalizing stop with
  | zero => exact List.Pairwise.nil
  | succ count ih =>
    rw [Nat.succ_mul] at above
    have step : (stop - size.bytes).toNat + size.length = stop.toNat :=
      toNat_sub_bytes (by omega)
    have below : count * size.length ≤ (stop - size.bytes).toNat := by omega
    refine List.pairwise_append.2 ⟨ih below, List.pairwise_singleton _ _, ?_⟩
    intro page mem last same
    obtain rfl := List.mem_singleton.1 same
    exact lt_of_mem_pagesBelow below mem

theorem length_pagesBelow (size : PageSize) (stop : UInt64) (count : Nat) :
    (size.pagesBelow stop count).length = count := by
  induction count generalizing stop with
  | zero => rfl
  | succ count ih => rw [pagesBelow, List.length_append, ih, List.length_singleton]

end PageSize

/-! ## Bounds -/

namespace Region

variable {size : PageSize} {start length first stop page : UInt64}

/-- The pages of a region are counted from one page boundary to another, within
the bounds and not from address zero. -/
theorem whole_ofBounds (h : ofBounds size start length = .wholePages first stop) :
    0 < start.toNat ∧ start.toNat + length.toNat < 2 ^ 64 ∧
      first.toNat = (start.toNat + size.length - 1) / size.length * size.length ∧
      stop.toNat = (start.toNat + length.toNat) / size.length * size.length ∧
      first.toNat < stop.toNat := by
  obtain ⟨_, last⟩ := checkedSub_one size.toNat_bytes_pos
  rw [size.toNat_bytes_eq_length] at last
  unfold ofBounds at h
  split at h
  · rename_i top reach end_ round
    rw [checkedAdd_eq_ok_iff] at end_ round
    dsimp only at h
    split at h
    · cases h
    · rename_i good
      cases h
      rw [not_or, UInt64.le_iff_toNat_le] at good
      have start_pos : 0 < start.toNat := Nat.pos_of_ne_zero fun zero =>
        good.1 (UInt64.toNat_inj.1 zero)
      have bound := top.toNat_lt
      have firstValue : (clearBelow reach size.bytes).toNat =
          reach.toNat / size.length * size.length := size.toNat_pageOf reach
      have stopValue : (clearBelow top size.bytes).toNat =
          top.toNat / size.length * size.length := size.toNat_pageOf top
      refine ⟨start_pos, by omega, ?_, ?_, Nat.lt_of_not_le good.2⟩
      · have up : start.toNat + (size.bytes - 1).toNat = start.toNat + size.length - 1 := by omega
        rw [firstValue, ← round, up]
      · rw [stopValue, ← end_]
  · cases h

theorem pageCount_mul (h : ofBounds size start length = .wholePages first stop) :
    (pageCount size first stop).toNat * size.length + first.toNat = stop.toNat := by
  obtain ⟨_, _, firstValue, stopValue, less⟩ := whole_ofBounds h
  have le : first ≤ stop := UInt64.le_iff_toNat_le.2 (Nat.le_of_lt less)
  have divides : size.length ∣ stop.toNat - first.toNat := by
    rw [firstValue, stopValue]
    exact Nat.dvd_sub (Nat.dvd_mul_left _ _) (Nat.dvd_mul_left _ _)
  rw [pageCount, UInt64.toNat_div, UInt64.toNat_sub_of_le _ _ le, size.toNat_bytes_eq_length,
    Nat.div_mul_cancel divides]
  omega

/-- The pages are counted from the least page boundary that is not below the start. -/
theorem isLeast_first (h : ofBounds size start length = .wholePages first stop) :
    IsLeast (multiplesAbove size.length start.toNat) first.toNat := by
  rw [(whole_ofBounds h).2.2.1]
  exact isLeast_ceilDiv_mul size.length_pos start.toNat

/-- They are counted to the greatest page boundary that is not above the end. -/
theorem isGreatest_stop (h : ofBounds size start length = .wholePages first stop) :
    IsGreatest (multiplesBelow size.length (start.toNat + length.toNat)) stop.toNat := by
  rw [(whole_ofBounds h).2.2.2.1]
  exact isGreatest_div_mul size.length_pos _

theorem aligned_stop (h : ofBounds size start length = .wholePages first stop) :
    size.Aligned stop :=
  size.aligned_iff.2 (isGreatest_stop h).1.1

/-- The pages of a region end before its first page would be at address zero. -/
theorem pageCount_mul_lt (h : ofBounds size start length = .wholePages first stop) :
    (pageCount size first stop).toNat * size.length < stop.toNat := by
  have count := pageCount_mul h
  have some := (whole_ofBounds h).1
  have above := (isLeast_first h).1.2
  omega

/-- The pages of a region are the pages within its bounds. -/
theorem mem_pages_ofBounds (h : ofBounds size start length = .wholePages first stop) :
    page ∈ (ofBounds size start length).pages size ↔
      size.Aligned page ∧ start.toNat ≤ page.toNat ∧
        page.toNat + size.length ≤ start.toNat + length.toNat := by
  have count := pageCount_mul h
  have least := isLeast_first h
  have greatest := isGreatest_stop h
  have above : (pageCount size first stop).toNat * size.length ≤ stop.toNat := by omega
  rw [h, pages, PageSize.mem_pagesBelow above, PageSize.aligned_iff]
  constructor
  · rintro ⟨i, less, sum⟩
    have whole : size.length ∣ page.toNat := by
      refine size.aligned_iff.1 (PageSize.aligned_of_mem_pagesBelow (aligned_stop h) above ?_)
      exact (PageSize.mem_pagesBelow above).2 ⟨i, less, sum⟩
    have some : (i + 1) * size.length ≤ (pageCount size first stop).toNat * size.length :=
      Nat.mul_le_mul_right _ less
    have low : first.toNat ≤ page.toNat := by omega
    rw [Nat.succ_mul] at sum
    have high : page.toNat + size.length ≤ stop.toNat := by omega
    exact ⟨whole, Nat.le_trans least.1.2 low, Nat.le_trans high greatest.1.2⟩
  · rintro ⟨whole, low, high⟩
    have first' : first.toNat ≤ page.toNat := least.2 ⟨whole, low⟩
    have stop' : page.toNat + size.length ≤ stop.toNat :=
      greatest.2 ⟨Nat.dvd_add whole (Nat.dvd_refl _), high⟩
    -- both are multiples, so whole pages lie between the page and the end
    obtain ⟨i, between⟩ : size.length ∣ stop.toNat - (page.toNat + size.length) :=
      Nat.dvd_sub greatest.1.1 (Nat.dvd_add whole (Nat.dvd_refl _))
    rw [Nat.mul_comm] at between
    have fewer : (i + 1) * size.length ≤ (pageCount size first stop).toNat * size.length := by
      rw [Nat.succ_mul]
      omega
    refine ⟨i, Nat.le_of_mul_le_mul_right fewer size.length_pos, ?_⟩
    rw [Nat.succ_mul]
    omega

theorem sorted_pages (size : PageSize) (start length : UInt64) :
    ((ofBounds size start length).pages size).Pairwise (· < ·) := by
  rcases h : ofBounds size start length with _ | _ | ⟨first, stop⟩
  · exact List.Pairwise.nil
  · exact List.Pairwise.nil
  · have count := pageCount_mul h
    exact PageSize.sorted_pagesBelow (by omega)

theorem nodup_pages (size : PageSize) (start length : UInt64) :
    ((ofBounds size start length).pages size).Nodup :=
  (sorted_pages size start length).imp fun less same => absurd (same ▸ less) (UInt64.lt_irrefl _)

end Region

/-! ## Regions by their bounds -/

/-- The bounds of a region. -/
structure Extent where
  /-- The first address. -/
  start : UInt64
  /-- The number of bytes. -/
  length : UInt64
  deriving DecidableEq, Repr

namespace Extent

variable {size : PageSize} {extent other : Extent} {page : UInt64}

/-- The addresses of the region, as numbers. -/
def addresses (extent : Extent) : Set Nat :=
  {address | extent.start.toNat ≤ address ∧
    address < extent.start.toNat + extent.length.toNat}

/-- The whole pages that the region offers. -/
def pages (size : PageSize) (extent : Extent) : List UInt64 :=
  (Region.ofBounds size extent.start extent.length).pages size

theorem mem_pages (mem : page ∈ extent.pages size) :
    size.Aligned page ∧ extent.start.toNat ≤ page.toNat ∧
      page.toNat + size.length ≤ extent.start.toNat + extent.length.toNat := by
  rw [pages] at mem
  rcases region : Region.ofBounds size extent.start extent.length with _ | _ | ⟨first, stop⟩
  · rw [region] at mem
    cases mem
  · rw [region] at mem
    cases mem
  · exact (Region.mem_pages_ofBounds region).1 mem

theorem notMem_pages_of_disjoint (apart : Disjoint extent.addresses other.addresses)
    (mem : page ∈ extent.pages size) : page ∉ other.pages size := by
  intro mem'
  have pos := size.length_pos
  obtain ⟨_, low, high⟩ := extent.mem_pages mem
  obtain ⟨_, low', high'⟩ := other.mem_pages mem'
  exact Set.disjoint_left.1 apart (show page.toNat ∈ extent.addresses from ⟨low, by omega⟩)
    ⟨low', by omega⟩

end Extent

/-- What adding a region does to a pool. -/
def PoolView.addRegion (size : PageSize) (view : PoolView) (extent : Extent) :
    Except AllocError Unit × PoolView :=
  match Region.ofBounds size extent.start extent.length with
  | .wholePages .. => (.ok (), view.add (extent.pages size))
  | _ => (.error .invalidParam, view)

theorem PoolView.addRegion_cases (size : PageSize) (view : PoolView) (extent : Extent) :
    view.addRegion size extent = (.ok (), view.add (extent.pages size)) ∨
      view.addRegion size extent = (.error .invalidParam, view) := by
  unfold addRegion
  split
  · exact .inl rfl
  · exact .inr rfl

/-! ## Adding a region -/

namespace PagePool

variable {size : PageSize} {pool pool' : PagePool size} {memory memory' : Memory}
  {stop page : UInt64} {pages free : List UInt64} {count : Nat}

/-- The bytes of the links in the given pages. -/
def links (pages : List UInt64) : Set UInt64 :=
  {address | ∃ page ∈ pages, address ∈ Memory.run page 8}

theorem links_mono (le : pages ⊆ free) : links pages ⊆ links free :=
  fun _ ⟨page, mem, inside⟩ => ⟨page, le mem, inside⟩

theorem run_subset_links (mem : page ∈ pages) : Memory.run page 8 ⊆ links pages :=
  fun _ inside => ⟨page, mem, inside⟩

theorem links_subset_covered (wide : 8 ≤ size.length)
    (aligned : ∀ page ∈ pages, size.Aligned page) : links pages ⊆ size.covered pages := by
  rintro address ⟨page, mem, inside⟩
  have start := (aligned page mem).pageOf_of_mem_run wide inside
  exact Multiset.mem_coe.2 (start.symm ▸ mem)

/-- The link of a page is apart from the links of other pages. -/
theorem disjoint_links (wide : 8 ≤ size.length) (aligned : size.Aligned page)
    (others : ∀ other ∈ pages, size.Aligned other) (absent : page ∉ pages) :
    Disjoint (Memory.run page 8) (links pages) := by
  rw [Set.disjoint_left]
  rintro address inside ⟨other, mem, inside'⟩
  have start := aligned.pageOf_of_mem_run wide inside
  rw [(others other mem).pageOf_of_mem_run wide inside'] at start
  exact absent (start ▸ mem)

/-- Pages were pushed to a pool, whatever the pool had.  Following the links from its top meets
them and comes to what was on top before, unless that was the page at address zero. -/
structure Piles (pool : PagePool size) (memory : Memory) (pages : List UInt64)
    (pool' : PagePool size) (memory' : Memory) : Prop where
  free : pool'.free.toNat = pool.free.toNat + pages.length
  same : Set.EqOn memory'.byte memory.byte (links pages)ᶜ
  leads : 8 ≤ size.length → ∃ link, Leads (pageAfter memory') pool'.top pages link ∧
    (pool.top ≠ some 0 → link = pool.top)

/-- A page pushed before others comes to lie under them. -/
theorem Piles.of_push (aligned : size.Aligned page) (nonzero : page ≠ 0)
    (others : ∀ other ∈ pages, size.Aligned other) (absent : page ∉ pages)
    (room : pool.free.toNat + 1 < 2 ^ 64)
    (piles : Piles { pool with top := some page, free := pool.free + 1 }
      (memory.setWord page (Memory.wordOfLink pool.top)) pages pool' memory') :
    pool.Piles memory (pages ++ [page]) pool' memory' := by
  have own : Memory.run page 8 ⊆ links (pages ++ [page]) :=
    run_subset_links (List.mem_append_right _ (List.mem_singleton_self page))
  have rest : links pages ⊆ links (pages ++ [page]) := links_mono (List.subset_append_left _ _)
  refine ⟨?_, ?_, fun wide => ?_⟩
  · have one := (checkedAdd_one room).2
    have more := piles.free
    dsimp only at more
    rw [List.length_append, List.length_singleton]
    omega
  · exact (piles.same.mono (Set.compl_subset_compl.2 rest)).trans
      ((Memory.eqOn_setWord memory page _).mono (Set.compl_subset_compl.2 own))
  · obtain ⟨link, leads, grounded⟩ := piles.leads wide
    obtain rfl := grounded fun zero => nonzero (Option.some.inj zero)
    -- the link under the page is still there, since the other pages are pushed elsewhere
    have under : pageAfter memory' page = Memory.linkOfWord (Memory.wordOfLink pool.top) := by
      have apart := disjoint_links wide aligned others absent
      rw [pageAfter, Memory.word_congr (piles.same.mono apart.subset_compl_right),
        Memory.word_setWord_self]
    exact ⟨_, leads.append ⟨rfl, under⟩, Memory.linkOfWord_wordOfLink⟩

/-- Push the given number of pages that lie below a page boundary, the highest first. -/
def pushBelow (pool : PagePool size) (memory : Memory) (boundary : UInt64) :
    Nat → Except Fault (PagePool size × Memory)
  | 0 => return (pool, memory)
  | count + 1 => do
    let (pool, memory) ← pool.push (boundary - size.bytes) memory
    pool.pushBelow memory (boundary - size.bytes) count

/-- The way down to the first page has as many rounds as there are pages above it. -/
theorem pushDown_eq_pushBelow {first : UInt64} (pool : PagePool size) (memory : Memory)
    (above : count * size.length + first.toNat = stop.toNat) :
    pool.pushDown memory first stop = pool.pushBelow memory stop count := by
  induction count generalizing stop pool memory with
  | zero =>
    have reached : ¬ first < stop := by
      rw [UInt64.lt_iff_toNat_lt]
      omega
    rw [pushDown, if_neg reached, pushBelow]
  | succ count ih =>
    rw [Nat.succ_mul] at above
    have pos := size.length_pos
    have step : (stop - size.bytes).toNat + size.length = stop.toNat :=
      PageSize.toNat_sub_bytes (by omega)
    have lower : checkedSub stop size.bytes = .ok (stop - size.bytes) := by
      rw [checkedSub_eq_ok_iff, size.toNat_bytes_eq_length, Nat.add_comm]
      exact step
    have more : first < stop := by
      rw [UInt64.lt_iff_toNat_lt]
      omega
    rw [pushDown, if_pos more, pushBelow]
    split
    · rename_i fault stopped
      rw [lower] at stopped
      cases stopped
    · rename_i page below
      rw [lower] at below
      cases below
      refine bind_congr fun pushed => ?_
      exact ih pushed.1 pushed.2 (by omega)

/-- Pages pushed from the top come to lie in ascending order. -/
theorem pushBelow_piles (pool : PagePool size) (memory : Memory) (aligned : size.Aligned stop)
    (above : count * size.length < stop.toNat) (room : pool.free.toNat + count < 2 ^ 64) :
    ∃ pool' memory', pool.pushBelow memory stop count = .ok (pool', memory') ∧
      pool'.total = pool.total ∧ pool.Piles memory (size.pagesBelow stop count) pool' memory' := by
  induction count generalizing stop pool memory with
  | zero =>
    exact ⟨pool, memory, rfl, rfl, rfl, fun _ _ => rfl, fun _ => ⟨pool.top, rfl, fun _ => rfl⟩⟩
  | succ count ih =>
    have all := above
    rw [Nat.succ_mul] at above
    have step : (stop - size.bytes).toNat + size.length = stop.toNat :=
      PageSize.toNat_sub_bytes (by omega)
    have low : count * size.length < (stop - size.bytes).toNat := by omega
    have aligned' : size.Aligned (stop - size.bytes) :=
      PageSize.aligned_of_mem_pagesBelow aligned (Nat.le_of_lt all)
        (List.mem_append_right _ (List.mem_singleton_self _))
    have nonzero : stop - size.bytes ≠ 0 := by
      intro zero
      rw [zero, UInt64.toNat_zero] at low
      omega
    have first : pool.free.toNat + 1 < 2 ^ 64 := by omega
    have one := (checkedAdd_one first).2
    obtain ⟨pool', memory', rest, total, piles⟩ :=
      ih { pool with top := some (stop - size.bytes), free := pool.free + 1 }
        (memory.setWord (stop - size.bytes) (Memory.wordOfLink pool.top)) aligned' low
        (by dsimp only; omega)
    refine ⟨pool', memory', ?_, total, piles.of_push aligned' nonzero ?_ ?_ first⟩
    · simp only [PagePool.pushBelow, push_eq pool _ memory first, bind, Except.bind, rest]
    · exact fun other mem => PageSize.aligned_of_mem_pagesBelow aligned' (Nat.le_of_lt low) mem
    · exact fun mem =>
        UInt64.lt_irrefl _ (PageSize.lt_of_mem_pagesBelow (Nat.le_of_lt low) mem)

/-- The pages of a region come on top of whatever the pool has, and are counted. -/
theorem addRegion_piles (pool : PagePool size) (memory : Memory) {start length first : UInt64}
    (region : Region.ofBounds size start length = .wholePages first stop)
    (total : pool.total.toNat + ((Region.ofBounds size start length).pages size).length < 2 ^ 64)
    (free : pool.free.toNat + ((Region.ofBounds size start length).pages size).length < 2 ^ 64) :
    ∃ pool' memory', pool.addRegion memory (Region.ofBounds size start length) =
        .ok (.ok (pool', memory')) ∧
      pool'.total.toNat =
        pool.total.toNat + ((Region.ofBounds size start length).pages size).length ∧
      pool.Piles memory ((Region.ofBounds size start length).pages size) pool' memory' := by
  have below : (Region.ofBounds size start length).pages size =
      size.pagesBelow stop (Region.pageCount size first stop).toNat := by
    rw [region, Region.pages]
  rw [below, PageSize.length_pagesBelow] at total free ⊢
  obtain ⟨pool', memory', pushed, kept, piles⟩ := pushBelow_piles pool memory
    (Region.aligned_stop region) (Region.pageCount_mul_lt region) free
  rw [← pushDown_eq_pushBelow pool memory (Region.pageCount_mul region)] at pushed
  have less := UInt64.le_iff_toNat_le.2 (Nat.le_of_lt (Region.whole_ofBounds region).2.2.2.2)
  have length : checkedSub stop first = .ok (stop - first) := if_pos less
  rw [← kept] at total
  obtain ⟨counted, more⟩ := checkedAdd_of_lt total
  refine ⟨{ pool' with total := pool'.total + Region.pageCount size first stop }, memory', ?_, ?_,
    piles.free, piles.same, piles.leads⟩
  · rw [region]
    rw [Region.pageCount] at counted
    simp only [PagePool.addRegion, pushed, length, counted, bind, Except.bind, pure, Except.pure,
      Region.pageCount]
  · dsimp only
    rw [more, kept]

/-- On a stack of other pages, the pages pushed are those on top of it. -/
theorem Piles.freePages (wide : 8 ≤ size.length) (piles : pool.Piles memory pages pool' memory')
    (chain : pool.FreePages memory free) (nonzero : 0 ∉ free)
    (apart : ∀ other ∈ free, Disjoint (Memory.run other 8) (links pages)) :
    pool'.FreePages memory' (pages ++ free) := by
  obtain ⟨link, leads, grounded⟩ := piles.leads wide
  have ground : pool.top ≠ some 0 := by
    intro zero
    rw [FreePages, zero] at chain
    exact nonzero (Chain.mem_of_link chain)
  rw [grounded ground] at leads
  refine leads.chain (chain.congr fun other mem => ?_)
  rw [pageAfter, pageAfter,
    Memory.word_congr (piles.same.mono (apart other mem).subset_compl_right)]

theorem Stacks.piles (h : pool.Stacks memory free) (piles : pool.Piles memory pages pool' memory')
    (aligned : ∀ page ∈ pages ++ free, size.Aligned page) (nodup : (pages ++ free).Nodup)
    (nonzero : 0 ∉ free) : pool'.Stacks memory' (pages ++ free) := by
  refine ⟨fun wide => piles.freePages wide (h.chain wide) nonzero fun page mem => ?_, ?_⟩
  · exact disjoint_links wide (aligned page (List.mem_append_right _ mem))
      (fun other new => aligned other (List.mem_append_left _ new))
      (fun new => (List.nodup_append.1 nodup).2.2 page new page mem rfl)
  · rw [piles.free, h.count, List.length_append, Nat.add_comm]

end PagePool

section

variable {size : PageSize} {view : PoolView} {held : Multiset UInt64} {start length : UInt64}

/-- Pages that can be added to a pool. -/
structure PoolView.Offered (size : PageSize) (view : PoolView) (pages : List UInt64) : Prop where
  nodup : pages.Nodup
  aligned : ∀ page ∈ pages, size.Aligned page
  nonzero : ∀ page ∈ pages, page ≠ 0
  fresh : ∀ page ∈ pages, page ∉ view.added

theorem PoolView.Offered.of_region {first stop : UInt64}
    (region : Region.ofBounds size start length = .wholePages first stop)
    (fresh : ∀ page ∈ (Region.ofBounds size start length).pages size, page ∉ view.added) :
    view.Offered size ((Region.ofBounds size start length).pages size) := by
  have which {page : UInt64} : page ∈ (Region.ofBounds size start length).pages size ↔ _ :=
    Region.mem_pages_ofBounds region
  have start_pos := (Region.whole_ofBounds region).1
  refine ⟨Region.nodup_pages size start length, fun page mem => (which.1 mem).1, ?_, fresh⟩
  intro page mem zero
  have low := (which.1 mem).2.1
  rw [zero, UInt64.toNat_zero] at low
  omega

namespace PoolView.Describes

variable {metered : MeteredPool size} {memory : Memory} {pages : List UInt64} {page : UInt64}
  (h : view.Describes held metered memory)

section Offered

variable (offered : view.Offered size pages)

include h offered

theorem nodup_add : (view.add pages).added.Nodup :=
  Multiset.nodup_add.2 ⟨Multiset.coe_nodup.2 offered.nodup, h.nodup,
    Multiset.disjoint_left.2 fun mem => offered.fresh _ (Multiset.mem_coe.1 mem)⟩

theorem aligned_add : ∀ page ∈ (view.add pages).added, size.Aligned page := by
  intro page mem
  rcases Multiset.mem_add.1 mem with new | old
  · exact offered.aligned page (Multiset.mem_coe.1 new)
  · exact h.aligned page old

theorem nonzero_add : ∀ page ∈ (view.add pages).added, page ≠ 0 := by
  intro page mem
  rcases Multiset.mem_add.1 mem with new | old
  · exact offered.nonzero page (Multiset.mem_coe.1 new)
  · exact h.nonzero page old

theorem nodup_onTop : (pages ++ view.free).Nodup := by
  have parts := h.nodup
  rw [h.split] at parts
  refine List.nodup_append.2
    ⟨offered.nodup, Multiset.coe_nodup.1 (Multiset.nodup_add.1 parts).1, ?_⟩
  exact fun page new other old same => offered.fresh page new (same ▸ h.mem_added_of_free old)

omit offered in
theorem mem_added_add (mem : page ∈ pages ++ view.free) : page ∈ (view.add pages).added := by
  rcases List.mem_append.1 mem with new | old
  · exact Multiset.mem_add.2 (.inl (Multiset.mem_coe.2 new))
  · exact Multiset.mem_add.2 (.inr (h.mem_added_of_free old))

end Offered

include h

/-- The pages of a region come on top of the stack. -/
theorem addRegion {first stop : UInt64}
    (region : Region.ofBounds size start length = .wholePages first stop)
    (fresh : ∀ page ∈ (Region.ofBounds size start length).pages size, page ∉ view.added) :
    ∃ pool' memory',
      metered.pool.addRegion memory (Region.ofBounds size start length) =
        .ok (.ok (pool', memory')) ∧
      (view.add ((Region.ofBounds size start length).pages size)).Describes held
        { metered with pool := pool' } memory' ∧
      (8 ≤ size.length → Set.EqOn memory'.byte memory.byte (size.covered held)) := by
  have offered := Offered.of_region region fresh
  have nodup := h.nodup_add offered
  have aligned := h.aligned_add offered
  have nonzero := h.nonzero_add offered
  have onTop := h.nodup_onTop offered
  have alignedTop := fun page mem => aligned page (h.mem_added_add mem)
  have nonzeroTop := fun page mem => nonzero page (h.mem_added_add mem)
  have few := card_lt_of_nodup nodup nonzero
  have free := length_lt_of_nodup onTop nonzeroTop
  rw [PoolView.add, Multiset.card_add, Multiset.coe_card] at few
  rw [List.length_append] at free
  obtain ⟨pool', memory', added, total, piles⟩ := PagePool.addRegion_piles metered.pool memory
    region (by rw [h.total]; omega) (by rw [h.stack.count]; omega)
  refine ⟨pool', memory', added, ⟨h.refusal, h.requests, h.released, ?_, ?_, ?_, nodup, aligned,
    nonzero⟩, fun wide => piles.same.mono ?_⟩
  · exact h.stack.piles piles alignedTop onTop fun mem =>
      nonzeroTop 0 (List.mem_append_right _ mem) rfl
  · rw [total, h.total, PoolView.add, Multiset.card_add, Multiset.coe_card, Nat.add_comm]
  · rw [PoolView.add]
    dsimp only
    rw [h.split, ← Multiset.coe_add, Multiset.add_assoc]
  · intro address other new
    have inside := PagePool.links_subset_covered wide offered.aligned new
    exact fresh _ (Multiset.mem_coe.1 inside) (h.mem_added_of_held other)

end PoolView.Describes

deriving instance DecidableEq for Reply

namespace HeapM

variable {heap : Heap (MeteredPool size)}

theorem forM_report_ok {σ : Type} (event? : Option Event) (heap : Heap σ) :
    ∃ journal, event?.forM report heap = .ok () { heap with journal } := by
  rcases event? with _ | event
  · exact ⟨heap.journal, rfl⟩
  · exact ⟨event :: heap.journal, rfl⟩

/-- Adding a region puts its pages on top of the stack, if they are new. -/
theorem addMemory_adds {extent : Extent}
    (h : view.Describes held heap.source heap.memory)
    (fresh : ∀ page ∈ extent.pages size, page ∉ view.added) :
    ∃ heap', addMemory extent.start extent.length heap =
        .ok (view.addRegion size extent).1 heap' ∧
      (view.addRegion size extent).2.Describes held heap'.source heap'.memory ∧
      (8 ≤ size.length →
        Set.EqOn heap'.memory.byte heap.memory.byte (size.covered held)) ∧
      heap'.store = heap.store := by
  obtain ⟨journal, reported⟩ :=
    forM_report_ok ((Region.ofBounds size extent.start extent.length).event? size) heap
  have refused (none : heap.source.pool.addRegion heap.memory
        (Region.ofBounds size extent.start extent.length) = .ok (.error .invalidParam)) :
      addMemory extent.start extent.length heap =
        .ok (.error .invalidParam) { heap with journal } := by
    unfold addMemory
    rw [bind_ok get_ok, bind_ok (check_of_ok none), bind_ok reported]
    rfl
  rcases region : Region.ofBounds size extent.start extent.length with _ | _ | ⟨first, stop⟩
  · rw [PoolView.addRegion, region]
    exact ⟨_, refused (by rw [region]; rfl), h, fun _ _ _ => rfl, rfl⟩
  · rw [PoolView.addRegion, region]
    exact ⟨_, refused (by rw [region]; rfl), h, fun _ _ _ => rfl, rfl⟩
  · obtain ⟨pool', memory', added, described, same⟩ := h.addRegion region fresh
    rw [PoolView.addRegion, region]
    refine ⟨{ heap with
      journal, memory := memory', source := { heap.source with pool := pool' } }, ?_, described,
      same, rfl⟩
    unfold addMemory
    rw [bind_ok get_ok, bind_ok (check_of_ok added), bind_ok reported]
    rfl

end HeapM

end

end SlabHeap
