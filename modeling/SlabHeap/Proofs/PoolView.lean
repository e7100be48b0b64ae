import SlabHeap.Pages.Metered
import SlabHeap.Proofs.Plan
import SlabHeap.Proofs.SpaceLists

/-!
# Pools as stacks of pages

A `PoolView` is the abstract page pool: the stack of free pages, all pages ever
added, and what a metered pool keeps besides.  It is a page source whose answers
are functions of the view (`MeteredPool.model`), so a plan run on a view has one
result (`Plan.run`).

Every page added is either free or handed out, and what is handed out is not
touched.  The links of the stack stand in the first words of free pages, for
which a page has to have eight bytes at least.
-/

namespace SlabHeap

/-- The free pages of a pool and what was done with the others. -/
structure PoolView where
  /-- The free pages, the next to be handed out in front. -/
  free : List UInt64 := []
  /-- All pages ever added. -/
  added : Multiset UInt64 := 0
  /-- The order to refuse in force. -/
  refusal : Option Refusal := none
  /-- The requests made so far. -/
  requests : Nat := 0
  /-- The pages given back, the latest first. -/
  released : List UInt64 := []

namespace PoolView

/-- Hand out the page on top of the stack. -/
def pop (view : PoolView) : Except AllocError UInt64 × PoolView :=
  match view.free with
  | [] => (.error .noMemory, view)
  | page :: free => (.ok page, { view with free })

/-- Answer a request, unless it is refused by order. -/
def take (view : PoolView) : Except AllocError UInt64 × PoolView :=
  let counted := { view with requests := view.requests + 1 }
  match view.refusal with
  | none => counted.pop
  | some ⟨0, error⟩ => (.error error, counted)
  | some ⟨left + 1, error⟩ => { counted with refusal := some ⟨left, error⟩ }.pop

/-- Put a page back on top of the stack. -/
def give (view : PoolView) (page : UInt64) : PoolView :=
  { view with free := page :: view.free, released := page :: view.released }

/-- Put new pages on top of the stack. -/
def add (view : PoolView) (pages : List UInt64) : PoolView :=
  { view with free := pages ++ view.free, added := pages + view.added }

end PoolView

/-- What a plan comes to on a pool. -/
def Plan.run {α : Type} : Plan α → PoolView → α × PoolView
  | .done a, view => (a, view)
  | .take next, view => (next view.take.1).run view.take.2
  | .give page next, view => next.run (view.give page)

/-- One plan after another comes to one run after another. -/
theorem Plan.run_bind {α β : Type} (plan : Plan α) (rest : α → Plan β) (pool : PoolView) :
    (plan >>= rest).run pool = (rest (plan.run pool).1).run (plan.run pool).2 := by
  induction plan generalizing pool with
  | done a => rfl
  | take next ih => exact ih _ _
  | give page next ih => exact ih _

/-- Different words that are not zero are fewer than all words. -/
theorem card_lt_of_nodup {words : Multiset UInt64} (nodup : words.Nodup)
    (nonzero : ∀ word ∈ words, word ≠ 0) : words.card < 2 ^ 64 := by
  induction words using Quotient.inductionOn with
  | h words =>
    exact length_lt_of_nodup (Multiset.coe_nodup.1 nodup) fun word mem =>
      nonzero word (Multiset.mem_coe.2 mem)

namespace PagePool

variable {size : PageSize} {pool : PagePool size} {memory memory' : Memory} {page : UInt64}
  {pages : List UInt64}

/-- A page pushed is linked to the one that was on top, whatever the pool has. -/
theorem push_eq (pool : PagePool size) (page : UInt64) (memory : Memory)
    (room : pool.free.toNat + 1 < 2 ^ 64) :
    pool.push page memory = .ok ({ pool with top := some page, free := pool.free + 1 },
      memory.setWord page (Memory.wordOfLink pool.top)) := by
  simp only [PagePool.push, (checkedAdd_one room).1, bind, Except.bind, pure, Except.pure]

/-! ## The stack in memory -/

/-- The stack of free pages in memory, where a link fits in a page, and their
number. -/
structure Stacks (pool : PagePool size) (memory : Memory) (pages : List UInt64) : Prop where
  chain : 8 ≤ size.length → pool.FreePages memory pages
  count : pool.free.toNat = pages.length

namespace Stacks

theorem pop?_nil (h : pool.Stacks memory []) (wide : 8 ≤ size.length) :
    pool.pop? memory = .ok none :=
  (h.chain wide).pop?_eq_none_iff.2 rfl

theorem pop?_cons (h : pool.Stacks memory (page :: pages)) (wide : 8 ≤ size.length) :
    ∃ pool', pool.pop? memory = .ok (some (page, pool')) ∧ pool'.Stacks memory pages ∧
      pool'.total = pool.total := by
  have first : pool.top = some page := (h.chain wide).1
  have count := h.count
  rw [List.length_cons] at count
  have pos : 0 < pool.free.toNat := by omega
  obtain ⟨counted, fewer⟩ := checkedSub_one pos
  have popped : pool.pop? memory =
      .ok (some (page, { pool with top := pageAfter memory page, free := pool.free - 1 })) := by
    simp only [pop?, first, counted, bind, Except.bind, pure, Except.pure]
  exact ⟨_, popped, ⟨fun _ => ((h.chain wide).pop popped).2,
    Nat.succ.inj (fewer.trans count)⟩, rfl⟩

/-- The stack depends on the first words of the free pages only. -/
theorem congr_links (h : pool.Stacks memory pages)
    (same : 8 ≤ size.length → ∀ page ∈ pages,
      Set.EqOn memory'.byte memory.byte (Memory.run page 8)) : pool.Stacks memory' pages := by
  refine ⟨fun wide => (h.chain wide).congr fun page mem => ?_, h.count⟩
  rw [pageAfter, pageAfter, Memory.word_congr (same wide page mem)]

/-- The stack depends on the free pages only. -/
theorem congr (h : pool.Stacks memory pages)
    (aligned : ∀ page ∈ pages, size.Aligned page)
    (same : Set.EqOn memory'.byte memory.byte (size.covered pages)) :
    pool.Stacks memory' pages := by
  refine h.congr_links fun wide page mem => same.mono fun address inside => ?_
  have page := (aligned page mem).pageOf_of_mem_run wide inside
  exact (show size.pageOf address ∈ (pages : Multiset UInt64) from page ▸ Multiset.mem_coe.2 mem)

theorem push (h : pool.Stacks memory pages)
    (nodup : (page :: pages).Nodup) (aligned : ∀ other ∈ page :: pages, size.Aligned other)
    (nonzero : ∀ other ∈ page :: pages, other ≠ 0) :
    ∃ pool' memory', pool.push page memory = .ok (pool', memory') ∧
      pool'.Stacks memory' (page :: pages) ∧ pool'.total = pool.total ∧
      (8 ≤ size.length → Set.EqOn memory'.byte memory.byte (size.page page)ᶜ) := by
  have few := length_lt_of_nodup nodup nonzero
  rw [List.length_cons, ← h.count] at few
  have more := (checkedAdd_one few).2
  have pushed := push_eq pool page memory few
  refine ⟨_, _, pushed, ⟨fun wide => (h.chain wide).push ?_ ?_ pushed, ?_⟩, rfl, fun wide => ?_⟩
  · intro zero
    have chain := h.chain wide
    rw [FreePages, zero] at chain
    cases pages with
    | nil => cases chain
    | cons first rest =>
      obtain ⟨same, _⟩ := chain
      cases same
      exact nonzero 0 (.tail _ List.mem_cons_self) rfl
  · intro other mem
    have differ : page ≠ other := fun same => (List.nodup_cons.1 nodup).1 (same ▸ mem)
    have disjoint := (aligned page List.mem_cons_self).disjoint_page (aligned other (.tail _ mem))
      differ
    exact Memory.apart_of_disjoint_run (by decide) (by decide)
      (disjoint.mono (Memory.run_mono wide) (Memory.run_mono wide))
  · dsimp only
    rw [more, h.count, List.length_cons]
  · exact (Memory.eqOn_setWord _ _ _).mono (Set.compl_subset_compl.2 (Memory.run_mono wide))

end Stacks

end PagePool

namespace PoolView

/-- The pool has the stack of the view, and all other pages that were added are
handed out. -/
structure Describes {size : PageSize} (view : PoolView) (held : Multiset UInt64)
    (metered : MeteredPool size) (memory : Memory) : Prop where
  refusal : metered.refusal = view.refusal
  requests : metered.requests = view.requests
  released : metered.released = view.released
  stack : metered.pool.Stacks memory view.free
  total : metered.pool.total.toNat = view.added.card
  split : view.added = view.free + held
  nodup : view.added.Nodup
  aligned : ∀ page ∈ view.added, size.Aligned page
  nonzero : ∀ page ∈ view.added, page ≠ 0

variable {size : PageSize} {view : PoolView} {held : Multiset UInt64}
  {metered : MeteredPool size} {memory memory' : Memory} {page : UInt64} {pages : List UInt64}

/-- A pool without a page. -/
theorem Describes.fresh (memory : Memory) :
    ({} : PoolView).Describes 0 ({} : MeteredPool size) memory :=
  ⟨rfl, rfl, rfl, ⟨fun _ => rfl, rfl⟩, rfl, rfl, Multiset.nodup_zero,
    fun _ mem => absurd mem (Multiset.notMem_zero _),
    fun _ mem => absurd mem (Multiset.notMem_zero _)⟩

namespace Describes

variable (h : view.Describes held metered memory)

include h

theorem apart : Disjoint (view.free : Multiset UInt64) held := by
  have nodup := h.nodup
  rw [h.split] at nodup
  exact (Multiset.nodup_add.1 nodup).2.2

theorem mem_added_of_free (mem : page ∈ view.free) : page ∈ view.added := by
  rw [h.split]
  exact Multiset.mem_add.2 (.inl (Multiset.mem_coe.2 mem))

theorem notMem_free_of_held (mem : page ∈ held) : page ∉ view.free := fun free =>
  Multiset.disjoint_left.1 h.apart (Multiset.mem_coe.2 free) mem

theorem mem_added_of_held (mem : page ∈ held) : page ∈ view.added := by
  rw [h.split]
  exact Multiset.mem_add.2 (.inr mem)

/-- The pool does not look at the pages handed out. -/
theorem congr (same : Set.EqOn memory'.byte memory.byte (size.covered held)ᶜ) :
    view.Describes held metered memory' := by
  have stack := h.stack.congr (fun page mem => h.aligned page (h.mem_added_of_free mem))
    (same.mono fun address free other => Multiset.disjoint_left.1 h.apart free other)
  exact ⟨h.refusal, h.requests, h.released, stack, h.total, h.split, h.nodup, h.aligned,
    h.nonzero⟩

/-- The pool counts the pages handed out. -/
theorem exists_used : ∃ used, metered.pool.used = .ok used ∧ used.toNat = held.card := by
  have total := h.total
  rw [h.split, Multiset.card_add, Multiset.coe_card, ← h.stack.count] at total
  have few := metered.pool.total.toNat_lt
  have number : (UInt64.ofNat held.card).toNat = held.card := by
    rw [UInt64.toNat_ofNat', Nat.mod_eq_of_lt (by omega)]
  refine ⟨UInt64.ofNat held.card, checkedSub_eq_ok_iff.2 ?_, number⟩
  rw [number, total]

/-- A request passed on is answered from the stack. -/
theorem passOn (wide : 8 ≤ size.length) :
    ∃ metered', metered.passOn memory = .ok (view.pop.1, metered', memory) ∧
      view.pop.2.Describes (granted view.pop.1 + held) metered' memory := by
  rcases free : view.free with _ | ⟨page, rest⟩
  · have stack := h.stack
    rw [free] at stack
    have popped := stack.pop?_nil wide
    have kept : view.pop = (.error .noMemory, view) := by rw [pop, free]
    rw [kept, granted, Multiset.zero_add]
    refine ⟨metered, ?_, h⟩
    simp only [MeteredPool.passOn, PageSource.takePage, popped, bind, Except.bind, pure,
      Except.pure]
  · have stack := h.stack
    rw [free] at stack
    obtain ⟨pool', popped, stack', total⟩ := stack.pop?_cons wide
    have taken : view.pop = (.ok page, { view with free := rest }) := by rw [pop, free]
    rw [taken, granted]
    refine ⟨{ metered with pool := pool' }, ?_, ⟨h.refusal, h.requests, h.released, stack', ?_, ?_,
      h.nodup, h.aligned, h.nonzero⟩⟩
    · simp only [MeteredPool.passOn, PageSource.takePage, popped, bind, Except.bind, pure,
        Except.pure]
    · dsimp only
      rw [total]
      exact h.total
    · dsimp only
      rw [h.split, free, ← Multiset.cons_coe, Multiset.cons_add, Multiset.singleton_add,
        Multiset.add_cons]

/-- A request is answered as the view says, and nothing is written. -/
theorem take (wide : 8 ≤ size.length) : ∃ metered', PageSource.takePage metered memory =
      .ok (view.take.1, metered', memory) ∧
    view.take.2.Describes (granted view.take.1 + held) metered' memory := by
  have counted (refusal : Option Refusal) :
      ({ view with requests := view.requests + 1, refusal } : PoolView).Describes held
        { metered with requests := metered.requests + 1, refusal } memory :=
    ⟨rfl, congrArg (· + 1) h.requests, h.released, h.stack, h.total, h.split, h.nodup, h.aligned,
      h.nonzero⟩
  obtain ⟨free, added, refusal, requests, released⟩ := view
  obtain ⟨pool, requests', released', refusal'⟩ := metered
  obtain rfl : refusal' = refusal := h.refusal
  rcases refusal' with _ | ⟨_ | left, error⟩
  · exact (counted none).passOn wide
  · simp only [PoolView.take, granted, Multiset.zero_add]
    exact ⟨_, rfl, counted _⟩
  · exact (counted (some ⟨left, error⟩)).passOn wide

end Describes

/-- A page given back is on top of the stack. -/
theorem Describes.give (wide : 8 ≤ size.length)
    (h : view.Describes (page ::ₘ held) metered memory) :
    ∃ metered' memory', PageSource.givePage page metered memory = .ok (metered', memory') ∧
      (view.give page).Describes held metered' memory' ∧
      Set.EqOn memory'.byte memory.byte (size.page page)ᶜ := by
  have nodup := h.nodup
  rw [h.split, Multiset.add_cons, ← Multiset.cons_add, Multiset.cons_coe] at nodup
  have aligned : ∀ other ∈ page :: view.free, size.Aligned other := by
    intro other mem
    rcases List.mem_cons.1 mem with rfl | free
    · exact h.aligned _ (h.mem_added_of_held (Multiset.mem_cons_self _ _))
    · exact h.aligned other (h.mem_added_of_free free)
  have nonzero : ∀ other ∈ page :: view.free, other ≠ 0 := by
    intro other mem
    rcases List.mem_cons.1 mem with rfl | free
    · exact h.nonzero _ (h.mem_added_of_held (Multiset.mem_cons_self _ _))
    · exact h.nonzero other (h.mem_added_of_free free)
  obtain ⟨pool', memory', pushed, stack, total, same⟩ := h.stack.push
    (Multiset.coe_nodup.1 (Multiset.nodup_add.1 nodup).1) aligned nonzero
  have checked := (aligned page List.mem_cons_self).isAligned_eq
  refine ⟨{ metered with pool := pool', released := page :: metered.released }, memory', ?_,
    ⟨h.refusal, h.requests, congrArg _ h.released, stack, ?_, ?_, h.nodup, h.aligned, h.nonzero⟩,
    same wide⟩
  · simp only [PageSource.givePage, checked, pushed, bind, Except.bind, pure, Except.pure, if_true]
  · dsimp only
    rw [total]
    exact h.total
  · dsimp only [PoolView.give]
    rw [h.split, ← Multiset.cons_coe, Multiset.cons_add, Multiset.add_cons]

end PoolView

/-! ## Metered pools as page sources -/

/-- A metered pool answers as its view says. -/
def MeteredPool.model {size : PageSize} (wide : 8 ≤ size.length) :
    PageModel size (MeteredPool size) where
  View := PoolView
  Describes := PoolView.Describes
  Take view answer view' := view.take = (answer, view')
  Give view page view' := view.give page = view'
  nodup h := by
    have nodup := h.nodup
    rw [h.split] at nodup
    exact (Multiset.nodup_add.1 nodup).2.1
  aligned h page mem := h.aligned page (h.mem_added_of_held mem)
  nonzero h page mem := h.nonzero page (h.mem_added_of_held mem)
  congr h same := h.congr same
  take {view _ _ memory} h := by
    obtain ⟨metered', taken, described⟩ := h.take wide
    exact ⟨_, _, metered', memory, taken, rfl, fun _ _ => rfl, described⟩
  give {view page held metered memory} h := by
    obtain ⟨metered', memory', given, described, same⟩ := h.give wide
    refine ⟨_, metered', memory', given, rfl, same.mono ?_, described⟩
    intro address other inside
    have nodup := h.nodup
    rw [h.split] at nodup
    have fresh := (Multiset.nodup_cons.1 (Multiset.nodup_add.1 nodup).2.1).1
    have aligned := h.aligned page (h.mem_added_of_held (Multiset.mem_cons_self _ _))
    have member : size.pageOf address ∈ held := other
    rw [(PageSize.mem_page_iff aligned).1 inside] at member
    exact fresh member

/-- What is asked of a pool adds no pages. -/
theorem Plan.added_run {α : Type} (plan : Plan α) (view : PoolView) :
    (plan.run view).2.added = view.added := by
  have popped (view : PoolView) : view.pop.2.added = view.added := by
    unfold PoolView.pop
    split <;> rfl
  have taken (view : PoolView) : view.take.2.added = view.added := by
    unfold PoolView.take
    dsimp only
    split
    · exact popped _
    · rfl
    · exact popped _
  induction plan generalizing view with
  | done a => rfl
  | take next ih => exact (ih _ _).trans (taken view)
  | give page next ih => exact ih _

/-- On a metered pool a plan can end only as it runs. -/
theorem Plan.runs_iff {size : PageSize} (wide : 8 ≤ size.length) {α : Type} {plan : Plan α}
    {view view' : PoolView} {a : α} :
    plan.Runs (MeteredPool.model wide) view a view' ↔ plan.run view = (a, view') := by
  induction plan generalizing view with
  | done b => exact ⟨fun ⟨h, h'⟩ => by rw [h, h']; rfl, fun h => by cases h; exact ⟨rfl, rfl⟩⟩
  | take next ih =>
    constructor
    · rintro ⟨answer, middle, allowed, run⟩
      have answered : view.take = (answer, middle) := allowed
      rw [Plan.run, answered]
      exact (ih answer).1 run
    · intro run
      exact ⟨view.take.1, view.take.2, rfl, (ih _).2 run⟩
  | give page next ih =>
    constructor
    · rintro ⟨middle, rfl, run⟩
      exact ih.1 run
    · intro run
      exact ⟨_, rfl, ih.2 run⟩

/-- An operation that carries out a plan on a metered pool ends as the plan runs. -/
theorem Follows.run {size : PageSize} {wide : 8 ≤ size.length} {α β : Type}
    {operation : HeapM (MeteredPool size) α} {plan : Plan β} {heap : Heap (MeteredPool size)}
    {view : PoolView} {post : α → β → Heap (MeteredPool size) → PoolView → Prop}
    (h : Follows (MeteredPool.model wide) operation plan heap view post) :
    ∃ a heap', operation heap = .ok a heap' ∧
      post a (plan.run view).1 heap' (plan.run view).2 := by
  obtain ⟨a, heap', b, view', ends, runs, related⟩ := h
  have run := (Plan.runs_iff wide).1 runs
  refine ⟨a, heap', ends, ?_⟩
  rw [run]
  exact related

/-- What a plan always has, it has on a pool. -/
theorem Plan.Always.run {α : Type} {holds : α → Prop} {plan : Plan α} (h : plan.Always holds)
    (view : PoolView) : holds (plan.run view).1 := by
  induction plan generalizing view with
  | done a => exact h
  | take next ih => exact ih _ (h _) _
  | give page next ih => exact ih h _

end SlabHeap
