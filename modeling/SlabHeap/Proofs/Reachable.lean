import SlabHeap.Proofs.Ledger

/-!
# Reachable heaps

A heap is reachable if permitted actions lead to it from allocators that were
never opened, over memory with any content.  `SharedHeap.Reachable` pairs it with
the ledger of its callers.

A permitted request carries out its plan on any page source
(`SharedView.Houses.request_serves`), and on a metered pool a plan has one run.  So
every reachable heap is as an abstract heap has it, and its ledger agrees with that
one (`SharedHeap.Reachable.exists_view`).  All that is shown of reachable heaps goes
through this statement.

What callers may do one after another is a matter of the ledger again
(`Ledger.Legal`), and a legal run leads from a reachable heap to another.
-/

namespace SlabHeap

variable {size : PageSize} {count : Nat}

/-- Allocators that were never opened, over a pool without a page. -/
def SharedHeap.fresh (size : PageSize) (count : Nat) (memory : Memory) :
    SharedHeap (MeteredPool size) count where
  heap := { memory, source := {} }

/-- What permitted actions lead to, with what callers know of it. -/
inductive SharedHeap.Reachable : SharedHeap (MeteredPool size) count → Ledger count → Prop
  | start (memory : Memory) : Reachable (.fresh size count memory) {}
  | step {shared shared' : SharedHeap (MeteredPool size) count} {ledger : Ledger count}
      {action : Action count} {reply : Reply} :
    Reachable shared ledger → ledger.Permits action →
      SharedHeap.perform action shared = .ok reply shared' →
      Reachable shared' (ledger.note action reply)

namespace Ledger

/-- What callers may do one after another. -/
def Legal (ledger : Ledger count) (shared : SharedHeap (MeteredPool size) count) :
    List (Action count) → Prop
  | [] => True
  | action :: rest => ledger.Permits action ∧
    ∀ reply shared', SharedHeap.perform action shared = .ok reply shared' →
      (ledger.note action reply).Legal shared' rest

/-- The ledger after some actions and the replies to them. -/
def noteAll (ledger : Ledger count) : List (Action count) → List Reply → Ledger count
  | action :: actions, reply :: replies => (ledger.note action reply).noteAll actions replies
  | _, _ => ledger

end Ledger

/-- Only new memory adds a region. -/
theorem Ledger.regions_request (ledger : Ledger count) (request : Request count) (reply : Reply) :
    (ledger.note (.request request) reply).regions = ledger.regions := by
  cases request with
  | init i => rfl
  | teardown i =>
    rw [note]
    split <;> rfl
  | alloc i bytes =>
    cases reply with
    | object answer => cases answer <;> rfl
    | done => rfl
    | region answer => rfl
  | free i object =>
    rw [note]
    split <;> rfl
  | write address values => rfl

/-- The ledger has the blocks and the regions of the view. -/
structure Ledger.Accounts (size : PageSize) (ledger : Ledger count) (view : SharedView count) :
    Prop where
  opened : ∀ i, ledger.opened i = (view.allocators i).initialized
  users : ∀ i, ledger.users i = (view.allocators i).table.users size
  leaked : ledger.leaked = view.lostBlocks size
  regions : view.pool.added = ledger.regions.flatMap (Extent.pages size)

variable {view : SharedView count} {shared : SharedHeap (MeteredPool size) count}
  {ledger ledger' : Ledger count} {action : Action count} {i : Fin count}

namespace Ledger.Accounts

theorem start (size : PageSize) (count : Nat) :
    ({} : Ledger count).Accounts size ({} : SharedView count) :=
  ⟨fun _ => rfl, fun _ => rfl, rfl, rfl⟩

variable (accounts : ledger.Accounts size view)

include accounts

/-- New regions offer new pages. -/
theorem fresh_pages {extent : Extent}
    (permitted : ∀ other ∈ ledger.regions, Disjoint extent.addresses other.addresses) :
    ∀ page ∈ extent.pages size, page ∉ view.pool.added := by
  intro page mem
  rw [accounts.regions, Multiset.mem_coe, List.mem_flatMap]
  rintro ⟨other, accepted, mem'⟩
  exact Extent.notMem_pages_of_disjoint (permitted other accepted) mem mem'

/-- What a caller holds is a block of one of the caches. -/
theorem exists_cache {holding : Holding count} (mem : holding ∈ ledger.holdings) :
    ∃ cache ∈ view.caches, holding.block ∈ cache.blocks size := by
  have listed : holding.block ∈ (ledger.holdings.map Holding.block : Multiset Block) :=
    Multiset.mem_coe.2 (List.mem_map_of_mem mem)
  rw [Holding.blocks_eq, Multiset.mem_add, Multiset.mem_sum] at listed
  rcases listed with ⟨i, _, used⟩ | leaked
  · have users : holding.block ∈ (view.allocators i).table.users size := accounts.users i ▸ used
    have served := Multiset.mem_of_le (Multiset.sub_le_self _ _) users
    obtain ⟨cache, held, own⟩ := CacheView.mem_sum.1 served
    exact ⟨cache, SharedView.mem_caches.2 (.inl ⟨i, held⟩), own⟩
  · have lost : holding.block ∈ view.lostBlocks size := accounts.leaked ▸ leaked
    obtain ⟨cache, held, own⟩ := CacheView.mem_sum.1 lost
    exact ⟨cache, SharedView.mem_caches.2 (.inr held), own⟩

/-- What may be freed is a block of a user. -/
theorem exists_user {object : UInt64} (permitted : ledger.Permits (.request (.free i object)))
    (opened : (view.allocators i).initialized = true) :
    ∃ block : Block, block.address = object ∧ block ∈ (view.allocators i).table.users size := by
  obtain ⟨block, address, own, _⟩ :=
    Holding.exists_erase (permitted ((accounts.opened i).trans opened))
  refine ⟨block, address, ?_⟩
  rw [← accounts.users i, Ledger.users, own]
  exact Multiset.mem_cons_self _ _

/-- The blocks of all caches are those that callers hold and those that caches are
stored in. -/
theorem blocks_eq {σ : Type} {shared : SharedHeap σ count} (h : view.Houses size shared) :
    (view.caches.map (CacheView.blocks size)).sum =
      (ledger.holdings.map Holding.block : Multiset Block) +
        ∑ i, (view.allocators i).table.storages := by
  have blocks : ∑ i, (view.allocators i).table.blocks size =
      ∑ i, (view.allocators i).table.storages + ∑ i, ledger.users i := by
    rw [← Finset.sum_add_distrib]
    refine Finset.sum_congr rfl fun i _ => ?_
    rw [(h.sound i).table.blocks_eq, accounts.users i]
  have all : (view.caches.map (CacheView.blocks size)).sum =
      ∑ i, (view.allocators i).table.blocks size + view.lostBlocks size :=
    view.sum_caches (CacheView.blocks size)
  have held : (ledger.holdings.map Holding.block : Multiset Block) =
      ∑ i, ledger.users i + ledger.leaked := Holding.blocks_eq ledger.holdings
  rw [all, blocks, held, accounts.leaked]
  abel

/-- One allocator changes, and gives up some caches. -/
theorem operate_dropping {pool : PoolView} {allocator : AllocatorView} {dropped : List CacheView}
    (opened : ledger'.opened = Function.update ledger.opened i allocator.initialized)
    (users : ledger'.users i = allocator.table.users size)
    (others : ∀ j ≠ i, ledger'.users j = ledger.users j)
    (leaked : ledger'.leaked = (dropped.map (CacheView.blocks size)).sum + ledger.leaked)
    (regions : ledger'.regions = ledger.regions) (added : pool.added = view.pool.added) :
    ledger'.Accounts size { pool, allocators := Function.update view.allocators i allocator,
                            lost := dropped ++ view.lost } := by
  refine ⟨fun j => ?_, fun j => ?_, ?_, ?_⟩
  · rw [opened]
    by_cases same : j = i
    · subst same
      simp only [Function.update_self]
    · simp only [Function.update_of_ne same]
      exact accounts.opened j
  · by_cases same : j = i
    · subst same
      simp only [Function.update_self]
      exact users
    · simp only [Function.update_of_ne same]
      exact (others j same).trans (accounts.users j)
  · rw [leaked, accounts.leaked, SharedView.lostBlocks, SharedView.lostBlocks, List.map_append,
      List.sum_append]
  · rw [regions]
    exact added.trans accounts.regions

theorem operate {pool : PoolView} {allocator : AllocatorView}
    (opened : ledger'.opened = Function.update ledger.opened i allocator.initialized)
    (users : ledger'.users i = allocator.table.users size)
    (others : ∀ j ≠ i, ledger'.users j = ledger.users j)
    (leaked : ledger'.leaked = ledger.leaked) (regions : ledger'.regions = ledger.regions)
    (added : pool.added = view.pool.added) :
    ledger'.Accounts size
      { view with pool, allocators := Function.update view.allocators i allocator } := by
  have none : ledger'.leaked =
      (([] : List CacheView).map (CacheView.blocks size)).sum + ledger.leaked :=
    leaked.trans (Multiset.zero_add _).symm
  exact accounts.operate_dropping opened users others none regions added

/-- An allocator that stays open or closed changes nothing. -/
theorem opened_eq_update {allocator : AllocatorView}
    (initialized : allocator.initialized = (view.allocators i).initialized) :
    ledger.opened = Function.update ledger.opened i allocator.initialized := by
  rw [initialized, ← accounts.opened i, Function.update_eq_self]

end Ledger.Accounts

/-! ## One request -/

/-- A request carries out its plan on any page source, and the ledger agrees with the view
again. -/
def SharedView.Serves {σ : Type} [PageSource σ] (model : PageModel size σ) (source : model.View)
    (view : SharedView count) (shared : SharedHeap σ count) (ledger : Ledger count)
    (request : Request count) : Prop :=
  ∃ reply view' shared' source', SharedHeap.serve size request shared = .ok reply shared' ∧
    (view.plan size request).Runs model source (reply, view') source' ∧
    view'.Houses size shared' ∧
    model.Describes source' view'.held shared'.heap.source shared'.heap.memory ∧
    (ledger.note (.request request) reply).Accounts size view'

namespace SharedView.Houses

variable {σ : Type} [PageSource σ] {shared : SharedHeap σ count} {model : PageModel size σ}
  {source : model.View} (h : view.Houses size shared)
  (known : model.Describes source view.held shared.heap.source shared.heap.memory)
  (accounts : ledger.Accounts size view)

include h known accounts

theorem write_serves {address : UInt64} {values : List UInt8}
    (permitted : ledger.Permits (.request (.write address values))) :
    view.Serves model source shared ledger (.write address values) := by
  obtain ⟨holding, mem, inside⟩ := permitted
  obtain ⟨cache, held, own⟩ := accounts.exists_cache mem
  obtain ⟨memory, ends, housed, same, covered⟩ := h.write held own inside
  exact ⟨.done, view, _, source, ends, ⟨rfl, rfl⟩, housed,
    model.congr known (same.mono (Set.compl_subset_compl.2 covered)), accounts⟩

theorem init_serves (i : Fin count) : view.Serves model source shared ledger (.init i) := by
  obtain ⟨allocator, journal, ends, initialized, opened, registered, users, carried⟩ :=
    h.init known i
  obtain ⟨housed, known'⟩ := h.operate view.pool carried (initialized.trans opened.symm)
    (registered.trans opened.symm)
  refine ⟨.done, _, _, source, ends, ⟨rfl, rfl⟩, housed, known',
    accounts.operate ?_ ?_ (fun _ _ => rfl) rfl rfl rfl⟩
  · rw [opened]
    rfl
  · exact (accounts.users i).trans users.symm

/-- A teardown leaks the users' blocks, but for those of the bootstrap class. -/
theorem teardown_serves (i : Fin count) :
    view.Serves model source shared ledger (.teardown i) := by
  cases opened : (view.allocators i).initialized with
  | false =>
    refine ⟨.done, view, shared, source, h.teardown_closed opened, ?_, h, known, ?_⟩
    · rw [plan_teardown_closed opened]
      exact ⟨rfl, rfl⟩
    · rw [Ledger.note, accounts.opened, opened, if_neg Bool.false_ne_true]
      exact accounts
  | true =>
    obtain ⟨allocatorView, allocator, heap, source', ends, runs, closed, closed', dropped⟩ :=
      h.teardown_dropped known opened
    have lost := AllocatorView.dropped_opened opened
    have carried := dropped.toCarried
    have users := dropped.users
    rw [← lost] at carried users
    rw [← accounts.users i] at users
    have leave : ∀ block ∈ ((view.allocators i).dropped.map (CacheView.blocks size)).sum,
        block.size ≠ bootstrapClass.size := by
      rw [lost]
      exact fun block mem => (h.sound i).table.size_of_stored mem
    have stay : ∀ block ∈ allocatorView.table.users size, block.size = bootstrapClass.size :=
      fun block => dropped.sound.size_of_alone dropped.stored
    obtain ⟨housed, known'⟩ := h.operate_dropping view.pool carried (closed.trans closed'.symm)
      (dropped.registered.trans closed'.symm)
      (fun cache mem => (h.sound i).table.caches cache (.tail _ (lost ▸ mem)))
      (fun cache mem => (h.sound i).table.rounded cache (.tail _ (lost ▸ mem)))
    refine ⟨.done, _, _, source', ends, runs.bind ⟨rfl, rfl⟩, housed, known', ?_⟩
    rw [Ledger.note, accounts.opened, opened, if_pos rfl]
    refine accounts.operate_dropping ?_ ?_
      (fun j differ => Holding.usersIn_leave_of_ne ledger.holdings differ) ?_ rfl rfl
    · rw [closed']
    · refine (Holding.usersIn_leave ledger.holdings i).trans ?_
      rw [← Ledger.users, users, Multiset.filter_add, Multiset.filter_eq_nil.2 leave,
        Multiset.filter_eq_self.2 stay, Multiset.zero_add]
    · refine (Holding.leakedIn_leave ledger.holdings i).trans ?_
      rw [← Ledger.users, users, Multiset.filter_add, Multiset.filter_eq_self.2 leave,
        Multiset.filter_eq_nil.2 fun block mem gone => gone (stay block mem),
        Multiset.add_zero]
      rfl

/-- The block that a caller is answered with is noted, and so is a refusal. -/
theorem alloc_serves (fits : size.Fits maxObjectSize) (i : Fin count) (bytes : UInt64) :
    view.Serves model source shared ledger (.alloc i bytes) := by
  obtain ⟨answer, allocatorView, allocator, heap, source', ends, runs, kept, kept', served⟩ :=
    h.alloc_served known fits i bytes
  have registered := served.registered.trans ((h.sound i).registered.trans kept'.symm)
  obtain ⟨housed, known'⟩ := h.operate view.pool served.toCarried
    (kept.trans ((h.allocators i).initialized.trans kept'.symm)) registered
  have users := served.users
  refine ⟨.object answer, _, _, source', ends, runs.bind ⟨rfl, rfl⟩, housed, known', ?_⟩
  cases answer with
  | error error =>
    rw [granted, Multiset.map_zero, Multiset.zero_add, ← accounts.users i] at users
    exact accounts.operate (accounts.opened_eq_update kept') users.symm (fun _ _ => rfl) rfl rfl
      rfl
  | ok object =>
    rw [granted, Multiset.map_singleton, ← accounts.users i] at users
    refine accounts.operate (accounts.opened_eq_update kept') ?_ (fun j differ => ?_) ?_ rfl rfl
    · refine Holding.usersIn_cons.trans ?_
      rw [if_pos ⟨rfl, rfl⟩, users]
      rfl
    · refine Holding.usersIn_cons.trans ?_
      rw [if_neg fun own => differ own.1.symm, Multiset.zero_add]
      rfl
    · refine Holding.leakedIn_cons.trans ?_
      rw [if_neg Bool.false_ne_true, Multiset.zero_add]
      rfl

theorem free_serves {object : UInt64} (permitted : ledger.Permits (.request (.free i object))) :
    view.Serves model source shared ledger (.free i object) := by
  cases opened : (view.allocators i).initialized with
  | false =>
    refine ⟨.done, view, _, source, h.free_closed opened object, ?_, h.noted _, known, ?_⟩
    · rw [plan_free_closed opened]
      exact ⟨rfl, rfl⟩
    · rw [Ledger.note, accounts.opened, opened, if_neg Bool.false_ne_true]
      exact accounts
  | true =>
    have held := permitted ((accounts.opened i).trans opened)
    obtain ⟨block, rfl, own, others, leaked⟩ := Holding.exists_erase held
    have mem : block ∈ (view.allocators i).table.users size := by
      rw [← accounts.users i, Ledger.users, own]
      exact Multiset.mem_cons_self _ _
    obtain ⟨allocatorView, allocator, heap, source', ends, runs, kept, kept', freed⟩ :=
      h.free_freed known opened mem
    have registered := freed.registered.trans ((h.sound i).registered.trans kept'.symm)
    obtain ⟨housed, known'⟩ := h.operate view.pool freed.toCarried
      (kept.trans ((h.allocators i).initialized.trans kept'.symm)) registered
    have users := freed.users
    refine ⟨.done, _, _, source', ends, runs.bind ⟨rfl, rfl⟩, housed, known', ?_⟩
    rw [Ledger.note, accounts.opened, opened, if_pos rfl]
    refine accounts.operate (accounts.opened_eq_update kept') ?_ others leaked rfl rfl
    rw [Multiset.singleton_add, ← accounts.users i, Ledger.users, own] at users
    exact (Multiset.cons_inj_right block).1 users

/-- Every permitted request ends, and carries out its plan. -/
theorem request_serves (fits : size.Fits maxObjectSize) {request : Request count}
    (permitted : ledger.Permits (.request request)) :
    view.Serves model source shared ledger request := by
  cases request with
  | init i => exact h.init_serves known accounts i
  | teardown i => exact h.teardown_serves known accounts i
  | alloc i bytes => exact h.alloc_serves known accounts fits i bytes
  | free i object => exact h.free_serves known accounts permitted
  | write address values => exact h.write_serves known accounts permitted

end SharedView.Houses

/-! ## One action -/

/-- An action ends as the view says, and the ledger agrees with the view again. -/
def SharedView.Refines (view : SharedView count) (shared : SharedHeap (MeteredPool size) count)
    (ledger : Ledger count) (action : Action count) : Prop :=
  ∃ shared', SharedHeap.perform action shared = .ok (view.perform size action).1 shared' ∧
    (view.perform size action).2.Describes shared' ∧
    (ledger.note action (view.perform size action).1).Accounts size (view.perform size action).2

namespace SharedView.Describes

variable (fits : size.Fits maxObjectSize) (h : view.Describes shared)
  (accounts : ledger.Accounts size view)

include h accounts

theorem refuse_refines (refusal : Option Refusal) :
    view.Refines shared ledger (.refuse refusal) := by
  obtain ⟨shared', ends, described, _⟩ := h.refuse refusal
  exact ⟨shared', ends, described, accounts.opened, accounts.users, accounts.leaked,
    accounts.regions⟩

include fits

/-- On a metered pool a plan has one run. -/
theorem request_refines {request : Request count}
    (permitted : ledger.Permits (.request request)) :
    view.Refines shared ledger (.request request) := by
  obtain ⟨reply, view', shared', pool, ends, runs, housed, known, accounts'⟩ :=
    h.houses.request_serves (h.known fits) accounts fits permitted
  have run := (Plan.runs_iff fits.wide).1 runs
  have added := Plan.added_run (view.plan size request) view.pool
  have regions := ledger.regions_request request reply
  have pooled : ({ view' with pool } : SharedView count).Houses size shared' :=
    ⟨housed.nodup, housed.aligned, housed.nonzero, housed.allocators, housed.sound, housed.lost,
      housed.rounded⟩
  rw [run, accounts.regions, ← regions] at added
  rw [Refines, perform_request, run]
  exact ⟨shared', ends, pooled.describes known, accounts'.opened, accounts'.users,
    accounts'.leaked, added⟩

theorem addMemory_refines {start length : UInt64}
    (permitted : ledger.Permits (.addMemory start length)) :
    view.Refines shared ledger (.addMemory start length) := by
  obtain ⟨shared', ends, described⟩ := h.addMemory fits (accounts.fresh_pages permitted)
  refine ⟨shared', ends, described, ?_⟩
  rw [SharedView.perform]
  dsimp only
  rcases view.pool.addRegion_cases size ⟨start, length⟩ with accepted | refused
  · rw [accepted]
    refine ⟨accounts.opened, accounts.users, accounts.leaked, ?_⟩
    rw [PoolView.add]
    dsimp only [Ledger.note]
    rw [List.flatMap_cons, ← Multiset.coe_add, accounts.regions]
  · rw [refused]
    exact ⟨accounts.opened, accounts.users, accounts.leaked, accounts.regions⟩

/-- Every permitted action ends as the view says. -/
theorem perform_refines (permitted : ledger.Permits action) :
    view.Refines shared ledger action := by
  cases action with
  | request request => exact h.request_refines fits accounts permitted
  | addMemory start length => exact h.addMemory_refines fits accounts permitted
  | refuse refusal => exact h.refuse_refines accounts refusal

end SharedView.Describes

/-! ## Runs -/

/-- Allocators that were never opened have no cache in memory. -/
theorem SharedView.Houses.fresh {σ : Type} (size : PageSize) (count : Nat) (heap : Heap σ) :
    ({} : SharedView count).Houses size ({ heap } : SharedHeap σ count) ∧
      ({} : SharedView count).held = 0 := by
  have held : ({} : SharedView count).held = 0 := by
    rw [SharedView.held_eq_sum]
    exact (Multiset.add_zero _).trans (Finset.sum_eq_zero fun _ _ => rfl)
  refine ⟨⟨?_, ?_, ?_, fun i => ?_, fun i => .fresh size, nofun, nofun⟩, held⟩
  · rw [held]
    exact Multiset.nodup_zero
  · rw [held]
    exact fun page mem => absurd mem (Multiset.notMem_zero _)
  · rw [held]
    exact fun page mem => absurd mem (Multiset.notMem_zero _)
  · have none : (Vector.replicate count ({} : Allocator)).get i = {} :=
      Vector.getElem_replicate i.isLt
    rw [none]
    exact .fresh size _ heap.memory

theorem SharedView.Describes.fresh (size : PageSize) (count : Nat) (memory : Memory) :
    ({} : SharedView count).Describes (SharedHeap.fresh size count memory) := by
  obtain ⟨housed, held⟩ := Houses.fresh size count (SharedHeap.fresh size count memory).heap
  refine housed.describes ?_
  rw [held]
  exact .fresh memory

/-- A reachable heap is as a view has it, and the ledger agrees with the view. -/
theorem SharedHeap.Reachable.exists_view (fits : size.Fits maxObjectSize)
    (reachable : Reachable shared ledger) :
    ∃ view : SharedView count, view.Describes shared ∧ ledger.Accounts size view := by
  induction reachable with
  | start memory => exact ⟨{}, .fresh size count memory, .start size count⟩
  | step _ permitted ends ih =>
    obtain ⟨view, h, accounts⟩ := ih
    obtain ⟨shared', ends', described, accounts'⟩ := h.perform_refines fits accounts permitted
    rw [ends] at ends'
    cases ends'
    exact ⟨_, described, accounts'⟩

/-- The ledger knows which allocators are open. -/
theorem SharedHeap.Reachable.initialized_eq (fits : size.Fits maxObjectSize)
    (reachable : Reachable shared ledger) (i : Fin count) :
    (shared.allocators.get i).initialized = ledger.opened i := by
  obtain ⟨view, h, accounts⟩ := reachable.exists_view fits
  rw [(h.allocators i).initialized, accounts.opened i]

/-- A permitted action of a reachable heap stops at no fault. -/
theorem SharedHeap.Reachable.exists_reply (fits : size.Fits maxObjectSize)
    (reachable : Reachable shared ledger) (permitted : ledger.Permits action) :
    ∃ reply shared', SharedHeap.perform action shared = .ok reply shared' := by
  obtain ⟨view, h, accounts⟩ := reachable.exists_view fits
  obtain ⟨shared', ends, _⟩ := h.perform_refines fits accounts permitted
  exact ⟨_, shared', ends⟩

/-- A legal run of a reachable heap ends, and in a reachable heap. -/
theorem SharedHeap.Reachable.run (fits : size.Fits maxObjectSize) {actions : List (Action count)}
    (reachable : Reachable shared ledger) (legal : ledger.Legal shared actions) :
    ∃ replies shared', actions.mapM SharedHeap.perform shared = .ok replies shared' ∧
      Reachable shared' (ledger.noteAll actions replies) := by
  induction actions generalizing shared ledger with
  | nil => exact ⟨[], shared, rfl, reachable⟩
  | cons action actions ih =>
    obtain ⟨reply, shared₁, ends⟩ := reachable.exists_reply fits legal.1
    obtain ⟨replies, shared', ends', reachable'⟩ :=
      ih (reachable.step legal.1 ends) (legal.2 _ _ ends)
    refine ⟨reply :: replies, shared', ?_, reachable'⟩
    rw [List.mapM_cons, bind_ok ends, bind_ok ends']
    rfl

/-- The answers to a legal run decide its ledger. -/
theorem SharedHeap.Reachable.run_of_answers (fits : size.Fits maxObjectSize)
    {actions : List (Action count)} {replies : List Reply} (reachable : Reachable shared ledger)
    (legal : ledger.Legal shared actions)
    (answers : (actions.mapM SharedHeap.perform).run' shared = some replies) :
    ∃ shared', actions.mapM SharedHeap.perform shared = .ok replies shared' ∧
      Reachable shared' (ledger.noteAll actions replies) := by
  obtain ⟨others, shared', ends, reachable'⟩ := reachable.run fits legal
  rw [run'_ok ends] at answers
  cases answers
  exact ⟨shared', ends, reachable'⟩

/-- What can be tested after a legal run holds of the heap that it leads to. -/
theorem SharedHeap.Reachable.run_of_test (fits : size.Fits maxObjectSize)
    {actions : List (Action count)} (reachable : Reachable shared ledger)
    (legal : ledger.Legal shared actions)
    (test : List Reply → SharedHeap (MeteredPool size) count → Bool)
    (tested : (do
      let replies ← actions.mapM SharedHeap.perform
      return test replies (← get) : Op (MeteredPool size) count Bool).run' shared = some true) :
    ∃ replies shared', actions.mapM SharedHeap.perform shared = .ok replies shared' ∧
      Reachable shared' (ledger.noteAll actions replies) ∧ test replies shared' = true := by
  obtain ⟨replies, shared', ends, reachable'⟩ := reachable.run fits legal
  rw [run'_ok ((bind_ok ends).trans (bind_ok get_ok))] at tested
  exact ⟨replies, shared', ends, reachable', Option.some.inj tested⟩

/-- What can be tested of one action after a legal run holds of the heaps before and after it. -/
theorem SharedHeap.Reachable.step_of_test (fits : size.Fits maxObjectSize)
    {actions : List (Action count)} (reachable : Reachable shared ledger)
    (legal : ledger.Legal shared actions) (action : Action count)
    (test : List Reply → SharedHeap (MeteredPool size) count → Reply →
      SharedHeap (MeteredPool size) count → Bool)
    (tested : (do
      let replies ← actions.mapM SharedHeap.perform
      let shared₁ ← get
      let reply ← SharedHeap.perform action
      return test replies shared₁ reply (← get) :
        Op (MeteredPool size) count Bool).run' shared = some true) :
    ∃ replies shared₁ reply shared₂, actions.mapM SharedHeap.perform shared = .ok replies shared₁ ∧
      Reachable shared₁ (ledger.noteAll actions replies) ∧
      SharedHeap.perform action shared₁ = .ok reply shared₂ ∧
      test replies shared₁ reply shared₂ = true := by
  obtain ⟨replies, shared₁, ends, reachable₁⟩ := reachable.run fits legal
  obtain ⟨_, ended⟩ := exists_ok_of_run' tested
  rw [bind_ok ends, bind_ok get_ok] at ended
  obtain ⟨reply, shared₂, ends', ended⟩ := exists_ok_of_bind ended
  rw [bind_ok get_ok] at ended
  exact ⟨replies, shared₁, reply, shared₂, ends, reachable₁, ends',
    (EStateM.Result.ok.inj ended).1⟩

end SlabHeap
