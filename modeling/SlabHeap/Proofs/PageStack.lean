import SlabHeap.Proofs.RegionPages

/-!
# Pools in use

A page pool is asked for pages one request after another, and whoever was handed a page
writes to it as he likes.  A `PoolLedger` lists the regions that were accepted and the pages
that are out.  It looks at requests and answers only.

`PoolAction.onStack` says what a stack of pages answers to a request and what it becomes.  The
pool does the same (`PoolSession.Stacked.performs`, one lemma for each request), although it
keeps the stack in the pages themselves.  Its links are safe because pages on the stack are not
out, and owners write within the pages that are.  So every reachable pool is a stack of the
pages that were added and are not out (`PoolSession.Reachable.isStack`).
-/

namespace SlabHeap

/-! ## Requests -/

/-- What is done with a page pool. -/
inductive PoolAction where
  /-- Add a region of memory. -/
  | addMemory (start length : UInt64)
  /-- Ask for a page. -/
  | take
  /-- Give a page back. -/
  | give (page : UInt64)
  /-- Write bytes to pages that are out. -/
  | write (address : UInt64) (values : List UInt8)
  deriving DecidableEq

/-- What a request is answered with. -/
inductive PoolReply where
  /-- Nothing to say. -/
  | done
  /-- Whether the region was accepted. -/
  | region (answer : Except AllocError Unit)
  /-- A page, or why there is none. -/
  | page (answer : Except AllocError UInt64)
  deriving DecidableEq

/-- A page pool and memory. -/
structure PoolSession (size : PageSize) where
  /-- The pool. -/
  pool : PagePool size := {}
  /-- The content of memory. -/
  memory : Memory

namespace PoolSession

variable {size : PageSize}

/-- Operations on a pool. -/
abbrev Op (size : PageSize) := EStateM Fault (PoolSession size)

/-- What a request comes to. -/
def serve (pool : PagePool size) (memory : Memory) :
    PoolAction → Except Fault (PoolReply × PagePool size × Memory)
  | .addMemory start length => do
    match ← pool.addRegion memory (Region.ofBounds size start length) with
    | .error error => return (.region (.error error), pool, memory)
    | .ok (pool, memory) => return (.region (.ok ()), pool, memory)
  | .take => do
    let (answer, pool, memory) ← PageSource.takePage pool memory
    return (.page answer, pool, memory)
  | .give page => do
    let (pool, memory) ← PageSource.givePage page pool memory
    return (.done, pool, memory)
  | .write address values => return (.done, pool, memory.setBytes address values)

/-- Perform a request. -/
def perform (action : PoolAction) : Op size PoolReply := fun session =>
  match serve session.pool session.memory action with
  | .ok (reply, pool, memory) => .ok reply { pool, memory }
  | .error fault => .error fault session

theorem perform_ok {session : PoolSession size} {action : PoolAction} {reply : PoolReply}
    {pool : PagePool size} {memory : Memory}
    (h : serve session.pool session.memory action = .ok (reply, pool, memory)) :
    perform action session = .ok reply { pool, memory } := by
  rw [perform, h]

end PoolSession

/-! ## Ledgers -/

/-- What is known of a pool from the answers to requests. -/
structure PoolLedger where
  /-- The regions that were accepted, the latest first. -/
  regions : List Extent := []
  /-- The pages that are out, the latest first. -/
  taken : List UInt64 := []

namespace PoolLedger

/-- The pages that were added. -/
def added (size : PageSize) (ledger : PoolLedger) : List UInt64 :=
  ledger.regions.flatMap (Extent.pages size)

/-- What may be done: add memory that was not added before, give back a page that is out, and
write within such pages. -/
def Permits (size : PageSize) (ledger : PoolLedger) : PoolAction → Prop
  | .addMemory start length =>
    ∀ other ∈ ledger.regions, Disjoint (Extent.mk start length).addresses other.addresses
  | .take => True
  | .give page => page ∈ ledger.taken
  | .write address values => Memory.run address values.length ⊆ size.covered ledger.taken

/-- The ledger after a request and the answer to it. -/
def note (ledger : PoolLedger) : PoolAction → PoolReply → PoolLedger
  | .addMemory start length, .region (.ok ()) =>
    { ledger with regions := ⟨start, length⟩ :: ledger.regions }
  | .take, .page (.ok page) => { ledger with taken := page :: ledger.taken }
  | .give page, _ => { ledger with taken := ledger.taken.erase page }
  | _, _ => ledger

/-- The ledger after several requests and the answers to them. -/
def noteAll (ledger : PoolLedger) : List (PoolAction × PoolReply) → PoolLedger
  | [] => ledger
  | entry :: rest => (ledger.note entry.1 entry.2).noteAll rest

/-- Each request of a run is permitted after those before it and the answers to them. -/
def Legal (size : PageSize) (ledger : PoolLedger) : List (PoolAction × PoolReply) → Prop
  | [] => True
  | entry :: rest => ledger.Permits size entry.1 ∧ (ledger.note entry.1 entry.2).Legal size rest

end PoolLedger

/-- What a stack of pages answers to a request, and what it becomes. -/
def PoolAction.onStack (size : PageSize) : PoolAction → List UInt64 → PoolReply × List UInt64
  | .addMemory start length, free =>
    match Region.ofBounds size start length with
    | .wholePages .. => (.region (.ok ()), (Extent.mk start length).pages size ++ free)
    | _ => (.region (.error .invalidParam), free)
  | .take, [] => (.page (.error .noMemory), [])
  | .take, page :: free => (.page (.ok page), free)
  | .give page, free => (.done, page :: free)
  | .write .., free => (.done, free)

namespace PoolSession

variable {size : PageSize}

/-- What permitted requests lead to, from a pool without pages. -/
inductive Reachable : PoolSession size → PoolLedger → Prop
  | start (memory : Memory) : Reachable { memory } {}
  | step {session session' : PoolSession size} {ledger : PoolLedger} {action : PoolAction}
      {reply : PoolReply} :
    Reachable session ledger → ledger.Permits size action →
      perform action session = .ok reply session' → Reachable session' (ledger.note action reply)

/-- The free pages of the pool are a stack of different pages, namely of those that were added
and are not out. -/
structure IsStack (session : PoolSession size) (ledger : PoolLedger) (free : List UInt64) :
    Prop where
  /-- The links in the free pages lead from one to the next, and the last one is zero. -/
  chain : session.pool.FreePages session.memory free
  /-- No page is free twice. -/
  nodup : free.Nodup
  /-- The pool counts the free pages. -/
  count : session.pool.free.toNat = free.length
  /-- The free pages were added and are not out. -/
  mem_iff : ∀ page, page ∈ free ↔ page ∈ ledger.added size ∧ page ∉ ledger.taken
  /-- What was added are pages of the address space, each once. -/
  added : (ledger.added size).Nodup ∧ ∀ page ∈ ledger.added size, page ≠ 0 ∧ size.Aligned page
  /-- The pool counts what was added. -/
  total : session.pool.total.toNat = (ledger.added size).length
  /-- What is out was added, and is out once. -/
  taken : ledger.taken.Nodup ∧ ledger.taken ⊆ ledger.added size
  /-- The pool counts what is out. -/
  used : ∃ used, session.pool.used = .ok used ∧ used.toNat = ledger.taken.length

/-- What is asked of the pool is answered from its stack. -/
structure Supplies (session : PoolSession size) (ledger : PoolLedger) (free : List UInt64) :
    Prop where
  /-- A permitted request is answered as by a stack, and leaves the stack that it leaves there. -/
  performs : ∀ action, ledger.Permits size action → ∃ session',
    perform action session = .ok (action.onStack size free).1 session' ∧
      session'.IsStack (ledger.note action (action.onStack size free).1)
        (action.onStack size free).2
  /-- There is no page exactly if all that were added are out. -/
  noMemory_iff : (∃ session', perform .take session = .ok (.page (.error .noMemory)) session') ↔
    ledger.added size ⊆ ledger.taken
  /-- A page is the top of the stack and not out. -/
  page : ∀ page session', perform .take session = .ok (.page (.ok page)) session' →
    free.head? = some page ∧ page ≠ 0 ∧ size.Aligned page ∧ page ∉ ledger.taken
  /-- The pages of a region that is accepted are the pages within it, and they come out next and
  in ascending order. -/
  region : ∀ start length session', ledger.Permits size (.addMemory start length) →
    perform (.addMemory start length) session = .ok (.region (.ok ())) session' →
      let pages := (Extent.mk start length).pages size
      (∀ page, page ∈ pages ↔ size.Aligned page ∧ start.toNat ≤ page.toNat ∧
        page.toNat + size.length ≤ start.toNat + length.toNat) ∧
      pages.Pairwise (· < ·) ∧
      ∃ session'', (List.replicate pages.length PoolAction.take).mapM perform session' =
        .ok (pages.map fun page => .page (.ok page)) session''

/-- The pool is as a view with these free pages has it. -/
def Stacked (session : PoolSession size) (ledger : PoolLedger) (free : List UInt64) : Prop :=
  ({ free, added := ledger.added size } : PoolView).Describes ledger.taken
    ({ pool := session.pool } : MeteredPool size) session.memory

/-- The pool does what a stack does. -/
def Performs (session : PoolSession size) (ledger : PoolLedger) (free : List UInt64)
    (action : PoolAction) : Prop :=
  ∃ session', perform action session = .ok (action.onStack size free).1 session' ∧
    session'.Stacked (ledger.note action (action.onStack size free).1) (action.onStack size free).2

end PoolSession

/-- What a metered pool notes besides is no matter of the pool. -/
theorem PoolView.Describes.bare {size : PageSize} {view : PoolView} {held : Multiset UInt64}
    {metered : MeteredPool size} {memory : Memory} (h : view.Describes held metered memory) :
    ({ free := view.free, added := view.added } : PoolView).Describes held
      ({ pool := metered.pool } : MeteredPool size) memory :=
  ⟨rfl, rfl, rfl, h.stack, h.total, h.split, h.nodup, h.aligned, h.nonzero⟩

namespace PoolSession

variable {size : PageSize} {session session' : PoolSession size} {ledger : PoolLedger}
  {free front back : List UInt64} {action : PoolAction} {page : UInt64}

/-- A region that the pool takes is accepted. -/
theorem perform_addMemory {start length : UInt64} {pool : PagePool size} {memory : Memory}
    (added : session.pool.addRegion session.memory (Region.ofBounds size start length) =
      .ok (.ok (pool, memory))) :
    perform (.addMemory start length) session = .ok (.region (.ok ())) { pool, memory } := by
  refine perform_ok ?_
  rw [serve, added]
  rfl

/-- A region that the pool does not take is refused, and nothing changes. -/
theorem perform_addMemory_refused {start length : UInt64} {error : AllocError}
    (refused : session.pool.addRegion session.memory (Region.ofBounds size start length) =
      .ok (.error error)) :
    perform (.addMemory start length) session = .ok (.region (.error error)) session := by
  refine perform_ok ?_
  rw [serve, refused]
  rfl

namespace Stacked

/-- A pool that is as a view has it is a stack. -/
theorem isStack (wide : 8 ≤ size.length) (h : session.Stacked ledger free) :
    session.IsStack ledger free := by
  have split : (ledger.added size : Multiset UInt64) = free + ledger.taken := h.split
  have nodup := h.nodup
  rw [split, Multiset.nodup_add] at nodup
  obtain ⟨nodupFree, nodupTaken, apart⟩ := nodup
  have added (page : UInt64) : page ∈ ledger.added size ↔ page ∈ free ∨ page ∈ ledger.taken := by
    rw [← Multiset.mem_coe, split, Multiset.mem_add, Multiset.mem_coe, Multiset.mem_coe]
  refine ⟨h.stack.chain wide, Multiset.coe_nodup.1 nodupFree, h.stack.count, fun page => ?_,
    ⟨Multiset.coe_nodup.1 h.nodup, fun page mem => ⟨h.nonzero page mem, h.aligned page mem⟩⟩,
    h.total, ⟨Multiset.coe_nodup.1 nodupTaken, fun page mem => (added page).2 (.inr mem)⟩,
    h.exists_used⟩
  constructor
  · intro mem
    exact ⟨(added page).2 (.inl mem), fun out => Multiset.disjoint_left.1 apart mem out⟩
  · rintro ⟨mem, kept⟩
    exact ((added page).1 mem).resolve_right kept

/-! ## One request -/

/-- A page is taken from the top of the stack, or there is none. -/
theorem take_performs (wide : 8 ≤ size.length) (h : session.Stacked ledger free) :
    session.Performs ledger free .take := by
  obtain ⟨metered, passed, described⟩ := h.passOn wide
  obtain ⟨⟨answer, pool, memory⟩, taken, same⟩ := bind_eq_ok_iff.1 passed
  cases same
  refine ⟨{ pool, memory := session.memory }, perform_ok ?_, ?_⟩
  · rw [serve, show PageSource.takePage session.pool session.memory = _ from taken]
    cases free <;> rfl
  · cases free with
    | nil => exact described.bare
    | cons page rest => exact described.bare

/-- A page that is out goes on top of the stack. -/
theorem give_performs (wide : 8 ≤ size.length) (h : session.Stacked ledger free)
    (out : page ∈ ledger.taken) : session.Performs ledger free (.give page) := by
  have held : (ledger.taken : Multiset UInt64) = page ::ₘ (ledger.taken.erase page : List UInt64) :=
    Multiset.coe_eq_coe.2 (List.perm_cons_erase out)
  rw [Stacked, held] at h
  obtain ⟨metered, memory, given, described, _⟩ := h.give wide
  obtain ⟨⟨pool, memory'⟩, pushed, same⟩ := bind_eq_ok_iff.1 given
  cases same
  refine ⟨{ pool, memory }, perform_ok ?_, described.bare⟩
  rw [serve, show PageSource.givePage page session.pool session.memory = _ from pushed]
  rfl

/-- The pages of a region that was not added before go on top of the stack. -/
theorem addMemory_performs {start length : UInt64} (h : session.Stacked ledger free)
    (apart : ledger.Permits size (.addMemory start length)) :
    session.Performs ledger free (.addMemory start length) := by
  have fresh : ∀ page ∈ (Extent.mk start length).pages size,
      page ∉ (ledger.added size : Multiset UInt64) := by
    intro page new old
    obtain ⟨other, accepted, mem⟩ := List.mem_flatMap.1 (Multiset.mem_coe.1 old)
    exact Extent.notMem_pages_of_disjoint (apart other accepted) new mem
  rcases region : Region.ofBounds size start length with _ | _ | ⟨first, stop⟩
  · rw [Performs, PoolAction.onStack, region]
    exact ⟨session, perform_addMemory_refused (by rw [region]; rfl), h⟩
  · rw [Performs, PoolAction.onStack, region]
    exact ⟨session, perform_addMemory_refused (by rw [region]; rfl), h⟩
  · obtain ⟨pool, memory, added, described, _⟩ := h.addRegion region fresh
    rw [Performs, PoolAction.onStack, region]
    exact ⟨{ pool, memory }, perform_addMemory added, described.bare⟩

/-- Owners do not write to the links of the stack. -/
theorem write_performs {address : UInt64} {values : List UInt8}
    (h : session.Stacked ledger free)
    (inside : Memory.run address values.length ⊆ size.covered ledger.taken) :
    session.Performs ledger free (.write address values) := by
  have same := Memory.eqOn_setBytes session.memory address values
  exact ⟨{ session with memory := session.memory.setBytes address values }, perform_ok rfl,
    h.congr (same.mono (Set.compl_subset_compl.2 inside))⟩

/-- A pool that is a stack does what a stack does. -/
theorem performs (wide : 8 ≤ size.length) (h : session.Stacked ledger free)
    (permitted : ledger.Permits size action) : session.Performs ledger free action := by
  cases action with
  | addMemory start length => exact h.addMemory_performs permitted
  | take => exact h.take_performs wide
  | give page => exact h.give_performs wide permitted
  | write address values => exact h.write_performs permitted

/-! ## Many requests -/

/-- As many requests as there are pages in front are answered with these pages, in their
order. -/
theorem takes (wide : 8 ≤ size.length) (h : session.Stacked ledger (front ++ back)) :
    ∃ session', (List.replicate front.length PoolAction.take).mapM perform session =
        .ok (front.map fun page => .page (.ok page)) session' ∧
      session'.Stacked { ledger with taken := front.reverse ++ ledger.taken } back := by
  induction front generalizing session ledger with
  | nil => exact ⟨session, rfl, h⟩
  | cons page front ih =>
    obtain ⟨session₁, first, stacked⟩ := h.take_performs wide
    obtain ⟨session₂, later, stacked'⟩ := ih stacked
    refine ⟨session₂, ?_, ?_⟩
    · rw [List.length_cons, List.replicate_succ, List.mapM_cons, bind_ok first, bind_ok later]
      rfl
    · rw [List.reverse_cons, List.append_assoc]
      exact stacked'

/-- A pool that is a stack is asked for what is on the stack. -/
theorem supplies (wide : 8 ≤ size.length) (h : session.Stacked ledger free) :
    session.Supplies ledger free := by
  have stack := h.isStack wide
  obtain ⟨next, taken, _⟩ := h.take_performs wide
  refine ⟨fun action permitted => ?_, ?_, fun page session' ends => ?_, ?_⟩
  · obtain ⟨session', ends, stacked⟩ := h.performs wide permitted
    exact ⟨session', ends, stacked.isStack wide⟩
  · have empty : free = [] ↔ ledger.added size ⊆ ledger.taken := by
      rw [List.eq_nil_iff_forall_not_mem]
      simp only [stack.mem_iff, not_and, not_not]
      rfl
    rw [← empty, taken]
    cases free with
    | nil => exact ⟨fun _ => rfl, fun _ => ⟨next, rfl⟩⟩
    | cons page rest => exact ⟨nofun, nofun⟩
  · rw [taken] at ends
    cases free with
    | nil => cases ends
    | cons top rest =>
      cases ends
      obtain ⟨added, kept⟩ := (stack.mem_iff page).1 List.mem_cons_self
      exact ⟨rfl, (stack.added.2 page added).1, (stack.added.2 page added).2, kept⟩
  · intro start length session' permitted ends
    obtain ⟨session₁, ends', stacked⟩ := h.addMemory_performs permitted
    rw [ends, PoolAction.onStack] at ends'
    rw [PoolAction.onStack] at stacked
    rcases region : Region.ofBounds size start length with _ | _ | ⟨first, stop⟩
    · rw [region] at ends'
      cases ends'
    · rw [region] at ends'
      cases ends'
    · rw [region] at ends' stacked
      cases ends'
      obtain ⟨session'', answers, _⟩ := stacked.takes wide
      exact ⟨fun page => Region.mem_pages_ofBounds region, Region.sorted_pages size start length,
        session'', answers⟩

end Stacked

/-- Every reachable pool is as a view has it. -/
theorem Reachable.exists_stacked (wide : 8 ≤ size.length) (reachable : Reachable session ledger) :
    ∃ free, session.Stacked ledger free := by
  induction reachable with
  | start memory => exact ⟨[], PoolView.Describes.fresh memory⟩
  | step _ permitted ends ih =>
    obtain ⟨free, stacked⟩ := ih
    obtain ⟨session', ends', stacked'⟩ := stacked.performs wide permitted
    rw [ends] at ends'
    cases ends'
    exact ⟨_, stacked'⟩

/-- A run of a reachable pool, whose answers decide its ledger. -/
theorem Reachable.run {entries : List (PoolAction × PoolReply)}
    (reachable : Reachable session ledger)
    (legal : ledger.Legal size entries)
    (ends : (entries.map Prod.fst).mapM perform session = .ok (entries.map Prod.snd) session') :
    Reachable session' (ledger.noteAll entries) := by
  induction entries generalizing session ledger with
  | nil =>
    cases ends
    exact reachable
  | cons entry rest ih =>
    rw [List.map_cons, List.mapM_cons] at ends
    obtain ⟨reply, session₁, first, ends⟩ := exists_ok_of_bind ends
    obtain ⟨replies, session₂, later, ends⟩ := exists_ok_of_bind ends
    cases ends
    exact ih (reachable.step legal.1 first) legal.2 later

/-- **A page pool is a stack of distinct pages.**  The chain of free pages of every reachable pool
ends, and it has each page that was added and is not out exactly once.  Every permitted request is
answered from its top, and the pool counts the pages that are out. -/
theorem Reachable.exists_stack (wide : 8 ≤ size.length) (reachable : Reachable session ledger) :
    ∃ free, session.IsStack ledger free ∧ session.Supplies ledger free := by
  obtain ⟨free, stacked⟩ := reachable.exists_stacked wide
  exact ⟨free, stacked.isStack wide, stacked.supplies wide⟩

/-- Two regions and a refused one.  The owner of the first page overwrote its link and gave it
back. -/
theorem Reachable.exists_stack_regrown :
    ∃ (session : PoolSession PageSize.default) (ledger : PoolLedger), Reachable session ledger ∧
      ledger = { regions := [⟨0x20000, 0x2000⟩, ⟨0x10010, 0x4000⟩], taken := [0x12000] } ∧
      8 ≤ PageSize.default.length ∧
      ∃ free, session.IsStack ledger free ∧ session.Supplies ledger free := by
  let entries : List (PoolAction × PoolReply) := [(.addMemory 0x10010 0x4000, .region (.ok ())),
    (.addMemory 0 0x1000, .region (.error .invalidParam)), (.take, .page (.ok 0x11000)),
    (.write 0x11000 [1, 2, 3, 4, 5, 6, 7, 8], .done), (.take, .page (.ok 0x12000)),
    (.give 0x11000, .done), (.addMemory 0x20000 0x2000, .region (.ok ()))]
  have answers : ((entries.map Prod.fst).mapM perform).run'
      ({ memory := {} } : PoolSession PageSize.default) = some (entries.map Prod.snd) := by
    decide +kernel
  obtain ⟨session, ends⟩ := exists_ok_of_run' answers
  have apart (first second : Extent)
      (order : first.start.toNat + first.length.toNat ≤ second.start.toNat) :
      Disjoint first.addresses second.addresses := by
    rw [Set.disjoint_left]
    rintro address ⟨_, below⟩ ⟨above, _⟩
    omega
  have aligned : PageSize.default.Aligned 0x11000 := PageSize.default.aligned_iff.2 (by decide)
  have own : Memory.run 0x11000 8 ⊆ PageSize.default.covered ([0x11000] : List UInt64) := by
    intro address inside
    have page := aligned.pageOf_of_mem_run (by decide) inside
    exact Multiset.mem_coe.2 (page ▸ List.mem_cons_self)
  have legal : PoolLedger.Legal PageSize.default {} entries := by
    refine ⟨nofun, fun other mem => ?_, trivial, own, trivial, .tail _ List.mem_cons_self,
      fun other mem => ?_, trivial⟩
    · obtain rfl := List.mem_singleton.1 mem
      exact apart _ _ (by decide)
    · obtain rfl := List.mem_singleton.1 mem
      exact (apart _ _ (by decide)).symm
  have reachable := (Reachable.start {}).run legal ends
  exact ⟨session, _, reachable, rfl, by decide, reachable.exists_stack (by decide)⟩

end PoolSession

end SlabHeap
