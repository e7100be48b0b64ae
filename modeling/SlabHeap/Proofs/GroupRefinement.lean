import Mathlib.Tactic.FinCases
import SlabHeap.Proofs.CacheGroups
import SlabHeap.Proofs.RegionPages

/-!
# Groups of caches refine abstract caches

Caches over one metered pool, and their abstract counterpart: a `GroupView` has a
stack of pages and a `CacheView` for each cache, and all it does is a function of
lists and stacks.  Requests may be refused at will, regions are added, and callers
write into the objects they hold.

What a caller may do depends on what he was answered.  `GroupLedger` keeps the
objects handed out and not yet freed and the regions accepted, and
`GroupLedger.Legal` says of a sequence of actions that every free is of such an
object, every write stays within one, and every new region is apart from the
others.

`GroupView.Describes.perform_refines` is the step: the caches answer as the view does,
and what the view knows of them stays true.  The run follows by induction.
-/

namespace SlabHeap

/-- What happens to caches over a metered pool. -/
inductive GroupAction (count : Nat) where
  /-- One of the caches serves an object. -/
  | alloc (cache : Fin count)
  /-- An object is put back into one of the caches. -/
  | free (cache : Fin count) (object : UInt64)
  /-- A caller writes bytes of his own. -/
  | write (address : UInt64) (values : List UInt8)
  /-- A region of memory is added to the pool. -/
  | addMemory (extent : Extent)
  /-- The pool is told to refuse, or to stop refusing. -/
  | refuse (refusal : Option Refusal)

/-- What can be seen of a group after an action. -/
structure GroupObservation (count : Nat) where
  /-- The reply to the action. -/
  reply : Reply
  /-- What each cache tells about itself. -/
  stats : Fin count → CacheStats
  /-- The number of requests made to the pool. -/
  requests : Nat
  /-- The pages given back to the pool, the latest first. -/
  released : List UInt64

/-! ## The caches -/

namespace CacheGroup

variable {size : PageSize} {count : Nat}

/-- Caches without a slab. -/
def fresh (size : PageSize) (sizes : Fin count → UInt64) (memory : Memory) :
    CacheGroup (MeteredPool size) count where
  heap := { memory, source := {} }
  caches := Vector.ofFn fun i => { objectSize := sizes i }

/-- Perform an action. -/
def perform : GroupAction count → Op (MeteredPool size) count Reply
  | .alloc i => return .object (← alloc size i)
  | .free i object => do
    free size i object
    return .done
  | .write address values => do
    onHeap (HeapM.write address values)
    return .done
  | .addMemory extent => return .region (← onHeap (HeapM.addMemory extent.start extent.length))
  | .refuse refusal => do
    onHeap (modify fun heap => { heap with source := { heap.source with refusal } })
    return .done

/-- What can be seen after an action. -/
def observe (group : CacheGroup (MeteredPool size) count) (reply : Reply) :
    GroupObservation count where
  reply := reply
  stats i := (group.caches.get i).stats
  requests := group.heap.source.requests
  released := group.heap.source.released

/-- Perform actions one after another, and watch. -/
def trace : List (GroupAction count) →
    Op (MeteredPool size) count (List (GroupObservation count))
  | [] => return []
  | action :: rest => do
    let reply ← perform action
    let seen := observe (← get) reply
    return seen :: (← trace rest)

end CacheGroup

/-! ## The abstract caches -/

/-- Abstract caches over an abstract pool. -/
structure GroupView (count : Nat) where
  /-- The pool they share. -/
  pool : PoolView := {}
  /-- The caches. -/
  caches : Fin count → CacheView

namespace GroupView

variable {count : Nat}

/-- Caches without a slab. -/
def fresh (sizes : Fin count → UInt64) : GroupView count where
  caches i := { objectSize := sizes i }

/-- Perform an action. -/
def perform (size : PageSize) : GroupAction count → GroupView count → Reply × GroupView count
  | .alloc i, view =>
    let ended := ((view.caches i).alloc size).run view.pool
    (.object ended.1.1,
      { pool := ended.2, caches := Function.update view.caches i ended.1.2 })
  | .free i object, view =>
    let ended := ((view.caches i).free size object).run view.pool
    (.done, { pool := ended.2, caches := Function.update view.caches i ended.1 })
  | .write _ _, view => (.done, view)
  | .addMemory extent, view =>
    let added := view.pool.addRegion size extent
    (.region added.1, { view with pool := added.2 })
  | .refuse refusal, view => (.done, { view with pool := { view.pool with refusal } })

/-- What can be seen after an action. -/
def observe (size : PageSize) (view : GroupView count) (reply : Reply) :
    GroupObservation count where
  reply := reply
  stats i := (view.caches i).stats size
  requests := view.pool.requests
  released := view.pool.released

/-- Perform actions one after another, and watch. -/
def trace (size : PageSize) :
    List (GroupAction count) → GroupView count → List (GroupObservation count) × GroupView count
  | [], view => ([], view)
  | action :: rest, view =>
    let first := view.perform size action
    let later := trace size rest first.2
    (first.2.observe size first.1 :: later.1, later.2)

end GroupView

/-! ## Callers -/

/-- What callers know of a group of caches. -/
structure GroupLedger (count : Nat) where
  /-- The objects that each cache handed out and that were not freed since. -/
  live : Fin count → List UInt64 := fun _ => []
  /-- The regions that were accepted. -/
  regions : List Extent := []

namespace GroupLedger

variable {count : Nat}

/-- What a caller may do: free an object that is live, write within one, and add
memory that was not added before. -/
def Permits (sizes : Fin count → UInt64) (ledger : GroupLedger count) :
    GroupAction count → Prop
  | .free i object => object ∈ ledger.live i
  | .write address values => ∃ i, ∃ object ∈ ledger.live i,
    Memory.run address values.length ⊆ Memory.run object (sizes i).toNat
  | .addMemory extent => ∀ other ∈ ledger.regions, Disjoint extent.addresses other.addresses
  | .alloc _ | .refuse _ => True

/-- The ledger after an action and the reply to it. -/
def note (ledger : GroupLedger count) : GroupAction count → Reply → GroupLedger count
  | .alloc i, .object (.ok object) =>
    { ledger with live := Function.update ledger.live i (object :: ledger.live i) }
  | .free i object, _ =>
    { ledger with live := Function.update ledger.live i ((ledger.live i).erase object) }
  | .addMemory extent, .region (.ok ()) => { ledger with regions := extent :: ledger.regions }
  | _, _ => ledger

/-- Each action of a sequence is permitted when its turn comes. -/
def Legal {size : PageSize} (sizes : Fin count → UInt64) :
    GroupLedger count → CacheGroup (MeteredPool size) count → List (GroupAction count) → Prop
  | _, _, [] => True
  | ledger, group, action :: rest => ledger.Permits sizes action ∧
    ∀ reply group', CacheGroup.perform action group = .ok reply group' →
      Legal sizes (ledger.note action reply) group' rest

/-- Each action of a sequence is permitted when its turn comes, if abstract caches answer. -/
def LegalFor (size : PageSize) (sizes : Fin count → UInt64) :
    GroupLedger count → GroupView count → List (GroupAction count) → Prop
  | _, _, [] => True
  | ledger, view, action :: rest => ledger.Permits sizes action ∧
    LegalFor size sizes (ledger.note action (view.perform size action).1)
      (view.perform size action).2 rest

end GroupLedger

/-! ## What is known of the caches -/

section

variable {size : PageSize} {count : Nat} {sizes : Fin count → UInt64}
  {group : CacheGroup (MeteredPool size) count} {view : GroupView count}
  {ledger : GroupLedger count} {action : GroupAction count}

/-- The caches in memory are as the view has them. -/
structure GroupView.Describes (view : GroupView count)
    (group : CacheGroup (MeteredPool size) count) : Prop where
  pool : view.pool.Describes (∑ i, (view.caches i).pages) group.heap.source group.heap.memory
  caches : ∀ i, (view.caches i).Describes size (group.caches.get i) group.heap.memory
  sound : ∀ i, (view.caches i).Sound size

/-- The ledger has the live objects and the regions of the view. -/
structure GroupLedger.Accounts (size : PageSize) (sizes : Fin count → UInt64)
    (ledger : GroupLedger count) (view : GroupView count) : Prop where
  sizes : ∀ i, (view.caches i).objectSize = sizes i
  live : ∀ i, (ledger.live i : Multiset UInt64) = (view.caches i).objects size
  regions : view.pool.added = ledger.regions.flatMap (Extent.pages size)

/-- The caches are on pages that were taken from the pool. -/
theorem GroupView.Describes.houses (h : view.Describes group) (wide : 8 ≤ size.length) :
    (MeteredPool.model wide).Houses view.pool view.caches group :=
  ⟨h.pool, h.caches, h.sound⟩

theorem PageModel.Houses.describes_group {wide : 8 ≤ size.length} {pool : PoolView}
    {caches : Fin count → CacheView} (h : (MeteredPool.model wide).Houses pool caches group) :
    ({ pool, caches } : GroupView count).Describes group :=
  ⟨h.source, h.describes, h.sound⟩

/-! ## One action -/

namespace GroupLedger.Accounts

variable (accounts : ledger.Accounts size sizes view)

include accounts

/-- New regions offer new pages. -/
theorem fresh_pages {extent : Extent} (permitted : ledger.Permits sizes (.addMemory extent)) :
    ∀ page ∈ extent.pages size, page ∉ view.pool.added := by
  intro page mem
  rw [accounts.regions, Multiset.mem_coe, List.mem_flatMap]
  rintro ⟨other, accepted, mem'⟩
  exact Extent.notMem_pages_of_disjoint (permitted other accepted) mem mem'

/-- The objects of one cache change. -/
theorem operate {i : Fin count} {live : List UInt64} {cacheView : CacheView} {pool : PoolView}
    (same : cacheView.objectSize = (view.caches i).objectSize)
    (objects : (live : Multiset UInt64) = cacheView.objects size)
    (added : pool.added = view.pool.added) :
    ({ ledger with live := Function.update ledger.live i live } : GroupLedger count).Accounts size
      sizes { pool, caches := Function.update view.caches i cacheView } := by
  refine ⟨fun j => ?_, fun j => ?_, added.trans accounts.regions⟩
  · dsimp only
    by_cases own : j = i
    · subst own
      rw [Function.update_self, same]
      exact accounts.sizes j
    · rw [Function.update_of_ne own]
      exact accounts.sizes j
  · dsimp only
    by_cases own : j = i
    · subst own
      rw [Function.update_self, Function.update_self, objects]
    · rw [Function.update_of_ne own, Function.update_of_ne own]
      exact accounts.live j

end GroupLedger.Accounts

/-- An action is answered as the view answers it, and the ledger agrees again. -/
def GroupView.Refines (sizes : Fin count → UInt64) (view : GroupView count)
    (group : CacheGroup (MeteredPool size) count) (ledger : GroupLedger count)
    (action : GroupAction count) : Prop :=
  ∃ group', CacheGroup.perform action group = .ok (view.perform size action).1 group' ∧
    (view.perform size action).2.Describes group' ∧
    (ledger.note action (view.perform size action).1).Accounts size sizes
      (view.perform size action).2

namespace GroupView.Describes

variable (fits : ∀ i, size.Fits (view.caches i).objectSize) (h : view.Describes group)
  (accounts : ledger.Accounts size sizes view)

include h accounts

theorem refuse_refines (refusal : Option Refusal) :
    view.Refines sizes group ledger (.refuse refusal) := by
  have pool := h.pool
  exact ⟨_, rfl, ⟨⟨rfl, pool.requests, pool.released, pool.stack, pool.total, pool.split,
    pool.nodup, pool.aligned, pool.nonzero⟩, h.caches, h.sound⟩,
    ⟨accounts.sizes, accounts.live, accounts.regions⟩⟩

include fits

/-- The object that a caller is answered with is noted, and so is a refusal. -/
theorem alloc_refines (i : Fin count) : view.Refines sizes group ledger (.alloc i) := by
  obtain ⟨answer, cacheView, group', pool, ends, runs, allocated, houses⟩ :=
    (h.houses (fits i).wide).alloc_served fits i
  have run := (Plan.runs_iff (fits i).wide).1 runs
  have added := Plan.added_run ((view.caches i).alloc size) view.pool
  rw [run] at added
  have performed : view.perform size (.alloc i) = (.object answer,
      { pool, caches := Function.update view.caches i cacheView }) := by
    rw [GroupView.perform, run]
  rw [GroupView.Refines, performed]
  refine ⟨group', ?_, houses.describes_group, ?_⟩
  · rw [CacheGroup.perform, bind_ok ends]
    rfl
  · have objects := allocated.objects
    rcases answer with error | object
    · rw [granted, Multiset.zero_add, ← accounts.live i] at objects
      have kept := accounts.operate allocated.objectSize objects.symm added
      rw [Function.update_eq_self] at kept
      exact kept
    · rw [granted, Multiset.singleton_add, ← accounts.live i] at objects
      exact accounts.operate allocated.objectSize objects.symm added

theorem free_refines {i : Fin count} {object : UInt64}
    (permitted : ledger.Permits sizes (.free i object)) :
    view.Refines sizes group ledger (.free i object) := by
  have mem : object ∈ (view.caches i).objects size := by
    rw [← accounts.live i]
    exact Multiset.mem_coe.2 permitted
  obtain ⟨cacheView, group', pool, ends, runs, freed, houses⟩ :=
    (h.houses (fits i).wide).free_freed fits mem
  have run := (Plan.runs_iff (fits i).wide).1 runs
  have added := Plan.added_run ((view.caches i).free size object) view.pool
  rw [run] at added
  have performed : view.perform size (.free i object) = (.done,
      { pool, caches := Function.update view.caches i cacheView }) := by
    rw [GroupView.perform, run]
  rw [GroupView.Refines, performed]
  refine ⟨group', ?_, houses.describes_group, ?_⟩
  · rw [CacheGroup.perform, bind_ok ends]
    rfl
  · refine accounts.operate freed.objectSize ?_ added
    rw [← Multiset.coe_erase, accounts.live i, freed.objects, Multiset.singleton_add,
      Multiset.erase_cons_head]

theorem write_refines {address : UInt64} {values : List UInt8}
    (permitted : ledger.Permits sizes (.write address values)) :
    view.Refines sizes group ledger (.write address values) := by
  obtain ⟨i, object, live, inside⟩ := permitted
  have mem : object ∈ (view.caches i).objects size := by
    rw [← accounts.live i]
    exact Multiset.mem_coe.2 live
  rw [← accounts.sizes i] at inside
  exact ⟨_, rfl, ((h.houses (fits i).wide).write fits mem inside).describes_group, accounts⟩

theorem addMemory_refines {extent : Extent} (permitted : ledger.Permits sizes (.addMemory extent)) :
    view.Refines sizes group ledger (.addMemory extent) := by
  obtain ⟨heap', ends, described, same, _⟩ :=
    HeapM.addMemory_adds h.pool (accounts.fresh_pages permitted)
  refine ⟨{ group with heap := heap' }, ?_, ⟨described, fun i => ?_, h.sound⟩, ?_⟩
  · rw [CacheGroup.perform, bind_ok (CacheGroup.onHeap_ok ends)]
    rfl
  · have wide := (fits i).wide
    exact ((h.houses wide).congr_source fits described (same wide)).describes i
  · rw [GroupView.perform]
    dsimp only
    rcases view.pool.addRegion_cases size extent with accepted | refused
    · rw [accepted]
      refine ⟨accounts.sizes, accounts.live, ?_⟩
      rw [PoolView.add]
      dsimp only [GroupLedger.note]
      rw [List.flatMap_cons, ← Multiset.coe_add, accounts.regions]
    · rw [refused]
      exact ⟨accounts.sizes, accounts.live, accounts.regions⟩

/-- Every permitted action is answered as the view answers it. -/
theorem perform_refines (permitted : ledger.Permits sizes action) :
    view.Refines sizes group ledger action := by
  cases action with
  | alloc i => exact h.alloc_refines fits accounts i
  | free i object => exact h.free_refines fits accounts permitted
  | write address values => exact h.write_refines fits accounts permitted
  | addMemory extent => exact h.addMemory_refines fits accounts permitted
  | refuse refusal => exact h.refuse_refines accounts refusal

end GroupView.Describes

/-! ## Runs -/

theorem GroupView.fresh_describes (sizes : Fin count → UInt64) (memory : Memory) :
    (GroupView.fresh sizes).Describes (CacheGroup.fresh size sizes memory) := by
  refine ⟨?_, fun i => .ofFn size sizes memory i, fun i => .nil size (sizes i)⟩
  rw [GroupView.fresh, CacheView.sum_pages_fresh sizes]
  exact .fresh memory

theorem GroupLedger.Accounts.start (size : PageSize) (sizes : Fin count → UInt64) :
    ({} : GroupLedger count).Accounts size sizes (.fresh sizes) :=
  ⟨fun _ => rfl, fun _ => rfl, rfl⟩

/-- What can be seen of the caches is what the view says. -/
theorem GroupView.Describes.observe_eq (h : view.Describes group) (reply : Reply) :
    group.observe reply = view.observe size reply := by
  have stats : (fun i => (group.caches.get i).stats) = fun i => (view.caches i).stats size :=
    funext fun i => (h.caches i).stats_eq
  rw [CacheGroup.observe, GroupView.observe, stats, h.pool.requests, h.pool.released]

/-- A legal sequence of actions is answered as the abstract caches answer it, and
in the end they are as the abstract caches. -/
theorem GroupView.Describes.trace_eq {actions : List (GroupAction count)}
    (h : view.Describes group) (fits : ∀ i, size.Fits (sizes i))
    (accounts : ledger.Accounts size sizes view) (legal : ledger.Legal sizes group actions) :
    ∃ group', CacheGroup.trace actions group = .ok (view.trace size actions).1 group' ∧
      (view.trace size actions).2.Describes group' := by
  induction actions generalizing group view ledger with
  | nil => exact ⟨group, rfl, h⟩
  | cons action rest ih =>
    obtain ⟨group₁, ends, described, accounts₁⟩ :=
      h.perform_refines (fun i => accounts.sizes i ▸ fits i) accounts legal.1
    obtain ⟨group₂, ends₂, described₂⟩ := ih described accounts₁ (legal.2 _ _ ends)
    refine ⟨group₂, ?_, described₂⟩
    rw [CacheGroup.trace, bind_ok ends, bind_ok get_ok, bind_ok ends₂, described.observe_eq]
    rfl

/-- Abstract caches tell which sequences of actions are legal. -/
theorem GroupView.Describes.legal {actions : List (GroupAction count)}
    (h : view.Describes group) (fits : ∀ i, size.Fits (sizes i))
    (accounts : ledger.Accounts size sizes view)
    (legal : ledger.LegalFor size sizes view actions) : ledger.Legal sizes group actions := by
  induction actions generalizing group view ledger with
  | nil => trivial
  | cons action rest ih =>
    refine ⟨legal.1, fun reply group' ends => ?_⟩
    obtain ⟨_, ends', described, accounts'⟩ :=
      h.perform_refines (fun i => accounts.sizes i ▸ fits i) accounts legal.1
    rw [ends'] at ends
    cases ends
    exact ih described accounts' legal.2

/-- **Caches refine abstract caches.** Caches that share a pool behave as lists of
stacks over a stack of pages, for any number of caches of any sizes that fit, any
regions, any refusals of the pool and any writes of the callers into their objects.
After every action of a legal sequence the reply, the statistics of all caches, the
number of requests and the pages given back are those of the abstract caches.  No
action stops at a fault, and memory is in the end what the abstract caches say. -/
theorem CacheGroup.trace_refines (sizes : Fin count → UInt64) (fits : ∀ i, size.Fits (sizes i))
    (memory : Memory) (actions : List (GroupAction count))
    (legal : ({} : GroupLedger count).Legal sizes (CacheGroup.fresh size sizes memory)
      actions) :
    ∃ group, CacheGroup.trace actions (CacheGroup.fresh size sizes memory) =
        .ok ((GroupView.fresh sizes).trace size actions).1 group ∧
      ((GroupView.fresh sizes).trace size actions).2.Describes group :=
  (GroupView.fresh_describes sizes memory).trace_eq fits (.start size sizes) legal

/-- Two caches, of 48 bytes and of 1000, on a region of three pages.  The second one is refused its
first page, and the first one gives its only page back. -/
theorem CacheGroup.trace_refines_two_caches :
    let sizes (i : Fin 2) : UInt64 := if i = 0 then 48 else 1000
    let actions : List (GroupAction 2) := [.addMemory ⟨0x10010, 0x4000⟩, .alloc 0,
      .refuse (some ⟨0, .invalidParam⟩), .alloc 1, .refuse none, .alloc 1, .free 0 0x11080]
    let seen := ((GroupView.fresh sizes).trace PageSize.default actions).1
    seen.map (fun seen => (seen.reply, seen.requests, seen.released)) =
        [(.region (.ok ()), 0, []), (.object (.ok 0x11080), 1, []), (.done, 1, []),
          (.object (.error .invalidParam), 2, []), (.done, 2, []),
          (.object (.ok 0x12030), 3, []), (.done, 3, [0x11000])] ∧
      ∃ group, CacheGroup.trace actions (CacheGroup.fresh PageSize.default sizes {}) =
          .ok seen group ∧
        ((GroupView.fresh sizes).trace PageSize.default actions).2.Describes group := by
  intro sizes actions seen
  have fits (i : Fin 2) : PageSize.default.Fits (sizes i) := by
    fin_cases i
    · exact ⟨by decide, by decide +kernel⟩
    · exact ⟨by decide, by decide +kernel⟩
  have legal : ({} : GroupLedger 2).LegalFor PageSize.default sizes (.fresh sizes) actions := by
    refine ⟨nofun, trivial, trivial, trivial, trivial, trivial, ?_, trivial⟩
    unfold GroupLedger.Permits
    decide +kernel
  refine ⟨by decide +kernel, CacheGroup.trace_refines sizes fits {} actions ?_⟩
  exact (GroupView.fresh_describes sizes {}).legal fits (.start PageSize.default sizes) legal

end

end SlabHeap
