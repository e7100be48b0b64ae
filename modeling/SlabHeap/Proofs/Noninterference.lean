import SlabHeap.Proofs.Relied
import SlabHeap.Proofs.Accounting
import SlabHeap.Proofs.Frames

/-!
# Idle bytes do not show

Callers share pages with the allocators, and pages go from one cache to another with all
that was written to them.  Still no caller can tell what stands in bytes that are idle
(`SharedHeap.idle`): objects and free slots, free pages behind their links, unused bytes of
headers and tables, and what is left over in a page.

Two heaps that agree on what is relied on (`SharedHeap.Resembles`) answer the same actions
alike and resemble each other again, also if callers write different values into their
objects (`SharedHeap.Reachable.perform_resembles`).  The reason is that one abstract heap
describes both of them.  Idle bytes are not relied on
(`Ledger.Accounts.disjoint_idle`), so heaps that differ in idle bytes only cannot be
told apart (`SharedHeap.Reachable.trace_eq_of_idle`).
-/

namespace SlabHeap

variable {size : PageSize} {count : Nat}

/-! ## Watching a run -/

/-- What can be seen of a shared heap after an action. -/
structure Observation (size : PageSize) (count : Nat) where
  /-- The reply to the action. -/
  reply : Reply
  /-- What each allocator tells about the cache that serves a size. -/
  stats : Fin count → UInt64 → Except Fault (Option CacheStats)
  /-- What each allocator tells about all its caches. -/
  allStats : Fin count → Except Fault (List CacheStats)
  /-- The pool, the number of requests made to it and the pages given back. -/
  source : MeteredPool size

namespace SharedHeap

/-- What can be seen after an action. -/
def observe (shared : SharedHeap (MeteredPool size) count) (reply : Reply) :
    Observation size count where
  reply := reply
  stats i := (shared.allocators.get i).stats shared.heap.store
  allStats i := (shared.allocators.get i).allStats shared.heap.store
  source := shared.heap.source

/-- Perform actions one after another, and watch. -/
def trace : List (Action count) → Op (MeteredPool size) count (List (Observation size count))
  | [] => return []
  | action :: rest => do
    let reply ← perform action
    let seen := observe (← get) reply
    return seen :: (← trace rest)

end SharedHeap

/-- Actions that differ at most in the values that a caller writes. -/
inductive Action.Alike : Action count → Action count → Prop
  | same (action : Action count) : Alike action action
  | write (address : UInt64) {values values' : List UInt8} : values.length = values'.length →
    Alike (.request (.write address values)) (.request (.write address values'))

/-! ## Bytes that are relied on, and idle ones -/

namespace SharedHeap

/-- The allocators hold a page as a slab: a user's object is in it, or an object that a cache
is stored in. -/
def HoldsPage (shared : SharedHeap (MeteredPool size) count) (ledger : Ledger count)
    (page : UInt64) : Prop :=
  ∃ i, (∃ block ∈ ledger.users i, size.pageOf block.address = page) ∨
    ∃ storages, (shared.allocators.get i).table.storages shared.heap.store = .ok storages ∧
      ∃ address ∈ storages, size.pageOf address = page

/-- The bytes that are relied on: the links of free pages, and in slabs the fields and the
table bytes of free slots. -/
def relied (shared : SharedHeap (MeteredPool size) count) (ledger : Ledger count) : Set UInt64 :=
  {address | (∃ pages, shared.heap.source.pool.FreePages shared.heap.memory pages ∧
      ∃ page ∈ pages, address ∈ Memory.run page 8) ∨
    ∃ page, shared.HoldsPage ledger page ∧ ∃ free,
      (Slab.mk page).FreeSlots shared.heap.memory free ∧ address ∈ (Slab.mk page).relied free}

/-- The bytes that are idle: free pages behind their links, pages of leaked objects, and slabs
behind the fields, but for the table bytes of free slots.  So the unused bytes of a header are
idle, the table bytes of slots in use and of no slot, the padding, all slots, and what is
behind the last slot. -/
def idle (shared : SharedHeap (MeteredPool size) count) (ledger : Ledger count) : Set UInt64 :=
  {address | (∃ pages, shared.heap.source.pool.FreePages shared.heap.memory pages ∧
      size.pageOf address ∈ pages ∧ address ∉ Memory.run (size.pageOf address) 8) ∨
    (∃ block ∈ ledger.leaked, size.pageOf block.address = size.pageOf address) ∨
    shared.HoldsPage ledger (size.pageOf address) ∧
      address ∉ Memory.run (size.pageOf address) Slab.fieldBytes ∧ ∃ free,
        (Slab.mk (size.pageOf address)).FreeSlots shared.heap.memory free ∧
          ∀ slot ∈ free, (Slab.mk (size.pageOf address)).entryAddress slot ≠ address}

/-- Two heaps have the same allocators, the same page source and the same caches, and agree
on some bytes. -/
structure Agrees (shared shared' : SharedHeap (MeteredPool size) count) (bytes : Set UInt64) :
    Prop where
  allocators : shared'.allocators = shared.allocators
  source : shared'.heap.source = shared.heap.source
  stored : ∀ i storages,
    (shared.allocators.get i).table.storages shared.heap.store = .ok storages →
      ∀ address ∈ storages, shared'.heap.store.read address = shared.heap.store.read address
  bytes : Set.EqOn shared'.heap.memory.byte shared.heap.memory.byte bytes

/-- Two heaps agree on all that is relied on. -/
def Resembles (shared shared' : SharedHeap (MeteredPool size) count) (ledger : Ledger count) :
    Prop := shared.Agrees shared' (shared.relied ledger)

end SharedHeap

variable {view : SharedView count} {shared shared' : SharedHeap (MeteredPool size) count}
  {ledger : Ledger count} {action action' : Action count}

/-! ## The same bytes in the view -/

namespace Ledger.Accounts

variable (accounts : ledger.Accounts size view) (h : view.Describes shared) {page : UInt64}

include accounts h

/-- The pages of leaked objects are those of the caches that were given up. -/
theorem exists_leaked_iff : (∃ block ∈ ledger.leaked, size.pageOf block.address = page) ↔
    page ∈ (view.lost.map CacheView.pages).sum := by
  rw [accounts.leaked, CacheView.mem_sum]
  constructor
  · rintro ⟨block, mem, rfl⟩
    obtain ⟨cache, lost, own⟩ := CacheView.mem_sum.1 mem
    have listed : cache ∈ view.caches := SharedView.mem_caches.2 (.inr lost)
    have regular := h.regular_of_mem listed (CacheView.slabs_ne_nil own)
    exact ⟨cache, lost, regular.pageOf_mem (CacheView.mem_blocks.1 own).1⟩
  · rintro ⟨cache, lost, held⟩
    obtain ⟨slab, mem, rfl⟩ := List.mem_map.1 (Multiset.mem_coe.1 held)
    have listed : cache ∈ view.caches := SharedView.mem_caches.2 (.inr lost)
    have regular := h.regular_of_mem listed (List.ne_nil_of_mem mem)
    obtain ⟨object, own, same⟩ := regular.exists_object (h.lost cache lost) mem
    exact ⟨⟨object, cache.objectSize⟩,
      CacheView.mem_sum.2 ⟨cache, lost, CacheView.mem_blocks.2 ⟨own, rfl⟩⟩, same⟩

/-- The pages of leaked objects are not free. -/
theorem pageOf_leaked_notMem {block : Block} (mem : block ∈ ledger.leaked) :
    size.pageOf block.address ∉ view.pool.free := by
  have lost := (accounts.exists_leaked_iff h).1 ⟨block, mem, rfl⟩
  apply h.pool.notMem_free_of_held
  rw [view.held_eq_sum]
  exact Multiset.mem_add.2 (.inr lost)

/-- The pages held are those of the caches. -/
theorem holdsPage_iff : shared.HoldsPage ledger page ↔
    ∃ i, ∃ cache ∈ (view.allocators i).table.caches, page ∈ cache.pages := by
  refine exists_congr fun i => ?_
  have sound := (h.sound i).table
  have regular := h.regular i
  have own : (view.allocators i).table.bootstrap ∈ (view.allocators i).table.caches :=
    List.mem_cons_self
  constructor
  · rintro (⟨block, user, rfl⟩ | ⟨storages, listed, address, mem, rfl⟩)
    · rw [accounts.users i] at user
      obtain ⟨cache, mem, _, served⟩ := sound.exists_cache_of_users regular user
      exact ⟨cache, mem, (sound.regular_of_mem regular mem
        (CacheView.slabs_ne_nil_of_object served)).pageOf_mem served⟩
    · rw [(h.allocators i).table.storages_eq] at listed
      obtain rfl := Except.ok.inj listed
      have used := Multiset.mem_of_le sound.storages
        (Multiset.mem_coe.2 ((view.allocators i).table.order_perm.mem_iff.1 mem))
      exact ⟨_, own, (sound.regular_of_mem regular own
        (CacheView.slabs_ne_nil_of_object used)).pageOf_mem used⟩
  · rintro ⟨cache, mem, held⟩
    obtain ⟨slab, listed, rfl⟩ := List.mem_map.1 (Multiset.mem_coe.1 held)
    have some := sound.regular_of_mem regular mem (List.ne_nil_of_mem listed)
    obtain ⟨object, served, inPage⟩ := some.exists_object (sound.caches cache mem) listed
    rw [sound.objects_eq regular mem, ← accounts.users i] at served
    cases Multiset.mem_add.1 served with
    | inl user =>
      obtain ⟨block, mem', rfl⟩ := Multiset.mem_map.1 user
      exact .inl ⟨block, (Multiset.mem_filter.1 mem').1, inPage⟩
    | inr stored =>
      refine .inr ⟨_, (h.allocators i).table.storages_eq, object, ?_, inPage⟩
      split at stored
      · exact (view.allocators i).table.order_perm.mem_iff.2 (Multiset.mem_coe.1 stored)
      · exact absurd stored (Multiset.notMem_zero _)

/-- The pages held and their free slots are the slabs of the caches. -/
theorem holdsPage_and_freeSlots_iff {free : List UInt64} :
    (shared.HoldsPage ledger page ∧ (Slab.mk page).FreeSlots shared.heap.memory free) ↔
      ∃ i, ∃ cache ∈ (view.allocators i).table.caches, ⟨page, free⟩ ∈ cache.slabs := by
  have known {i : Fin count} {cache : CacheView} {slab : SlabView}
      (mem : cache ∈ (view.allocators i).table.caches) (listed : slab ∈ cache.slabs) :
      slab.slab.FreeSlots shared.heap.memory slab.free := by
    obtain ⟨_, described⟩ := (h.allocators i).table.exists_cache mem
    exact (described.slabs slab listed).freeChain
  rw [accounts.holdsPage_iff h]
  constructor
  · rintro ⟨⟨i, cache, mem, held⟩, chain⟩
    obtain ⟨slab, listed, rfl⟩ := List.mem_map.1 (Multiset.mem_coe.1 held)
    obtain rfl := chain.unique (known mem listed)
    exact ⟨i, cache, mem, listed⟩
  · rintro ⟨i, cache, mem, listed⟩
    have chain := known mem listed
    exact ⟨⟨i, cache, mem, CacheView.mem_pages listed⟩, chain⟩

/-- What is relied on is what the view relies on. -/
theorem relied_eq (wide : 8 ≤ size.length) : shared.relied ledger = view.relied := by
  have chain := h.pool.stack.chain wide
  ext address
  constructor
  · rintro (⟨pages, free, page, mem, inside⟩ | ⟨page, held, free, slots, inside⟩)
    · obtain rfl := free.unique chain
      exact .inl ⟨page, mem, inside⟩
    · obtain ⟨i, cache, mem, listed⟩ := (accounts.holdsPage_and_freeSlots_iff h).1 ⟨held, slots⟩
      exact .inr ⟨i, cache, mem, _, listed, inside⟩
  · rintro (⟨page, mem, inside⟩ | ⟨i, cache, mem, slab, listed, inside⟩)
    · exact .inl ⟨_, chain, page, mem, inside⟩
    · obtain ⟨held, slots⟩ :=
        (accounts.holdsPage_and_freeSlots_iff h).2 ⟨i, cache, mem, listed⟩
      exact .inr ⟨slab.base, held, slab.free, slots, inside⟩

/-- A heap that resembles another one is as the same view has it. -/
theorem describes_of_resembles (wide : 8 ≤ size.length)
    (resembles : shared.Resembles shared' ledger) : view.Describes shared' := by
  refine h.congr_relied resembles.allocators resembles.source (fun i address mem => ?_) ?_
  · exact resembles.stored i _ (h.allocators i).table.storages_eq address
      ((view.allocators i).table.order_perm.mem_iff.2 mem)
  · rw [← accounts.relied_eq h wide]
    exact resembles.bytes

/-- Two heaps that one view describes resemble each other. -/
theorem resembles (wide : 8 ≤ size.length) (h' : view.Describes shared') :
    shared.Resembles shared' ledger := by
  refine ⟨h.houses.allocators_eq h'.houses, h.pool.metered_eq h'.pool wide,
    fun i storages listed address mem => ?_, ?_⟩
  · rw [(h.allocators i).table.storages_eq] at listed
    obtain rfl := Except.ok.inj listed
    exact h.read_eq h' ((view.allocators i).table.order_perm.mem_iff.1 mem)
  · rw [accounts.relied_eq h wide]
    exact h.eqOn_relied h' wide

/-- Pages held as slabs are neither free nor of leaked objects. -/
theorem apart_of_holdsPage (held : shared.HoldsPage ledger page) :
    page ∉ view.pool.free ∧ ∀ block ∈ ledger.leaked, size.pageOf block.address ≠ page := by
  obtain ⟨i, cache, mem, held⟩ := (accounts.holdsPage_iff h).1 held
  have table := Multiset.mem_of_le (TableView.pages_le mem) held
  have nodup := h.nodup_held
  constructor
  · apply h.pool.notMem_free_of_held
    rw [view.held_eq i]
    exact Multiset.mem_add.2 (.inl table)
  · rintro block lost rfl
    rw [view.held_eq i, SharedView.heldByOthers, Multiset.nodup_add] at nodup
    refine Multiset.disjoint_left.1 nodup.2.2 table (Multiset.mem_add.2 (.inr ?_))
    exact (accounts.exists_leaked_iff h).1 ⟨block, lost, rfl⟩

/-- What is idle is not relied on. -/
theorem disjoint_idle (wide : 8 ≤ size.length) :
    Disjoint (shared.relied ledger) (shared.idle ledger) := by
  have chain := h.pool.stack.chain wide
  rw [Set.disjoint_left]
  rintro address (⟨pages, free, page, mem, inside⟩ | ⟨page, held, slots, known, inside⟩)
  · obtain rfl := free.unique chain
    have aligned := h.pool.aligned page (h.pool.mem_added_of_free mem)
    obtain rfl := aligned.pageOf_of_mem_run wide inside
    rintro (⟨_, _, _, behind⟩ | ⟨block, lost, same⟩ | ⟨held, _⟩)
    · exact behind inside
    · exact accounts.pageOf_leaked_notMem h lost (same ▸ mem)
    · exact (accounts.apart_of_holdsPage h held).1 mem
  · obtain ⟨i, cache, mem, listed⟩ := (accounts.holdsPage_and_freeSlots_iff h).1 ⟨held, known⟩
    have regular := (h.sound i).table.regular_of_mem (h.regular i) mem (List.ne_nil_of_mem listed)
    have noted := SlabView.relied_subset_notes regular.fits (regular.slabs _ listed) inside
    obtain rfl := regular.fits.pageOf_of_mem_notes
      (regular.aligned _ (CacheView.mem_pages listed)) noted
    rintro (⟨pages, free, mem', _⟩ | ⟨block, lost, same⟩ | ⟨_, behind, slots, chain, unlisted⟩)
    · obtain rfl := free.unique (h.pool.stack.chain wide)
      exact (accounts.apart_of_holdsPage h held).1 mem'
    · exact (accounts.apart_of_holdsPage h held).2 block lost same
    · obtain rfl := chain.unique known
      rcases inside with ⟨field, _, inField⟩ | ⟨slot, mem', same⟩
      · exact behind (Slab.field_subset _ field inField)
      · exact unlisted slot mem' same

/-- What stands behind the headers and the tables is idle. -/
theorem bodies_subset_idle : view.bodies size ⊆ shared.idle ledger := by
  rintro address ⟨cache, listed, page, outside⟩
  rcases SharedView.mem_caches.1 listed with ⟨i, own⟩ | lost
  · obtain ⟨⟨base, free⟩, mem, rfl : base = _⟩ := List.mem_map.1 (Multiset.mem_coe.1 page)
    have regular := h.regular_of_mem listed (List.ne_nil_of_mem mem)
    have noted := SlabView.relied_subset_notes regular.fits (regular.slabs _ mem)
    obtain ⟨held, chain⟩ := (accounts.holdsPage_and_freeSlots_iff h).2 ⟨i, cache, own, mem⟩
    refine .inr (.inr ⟨held, fun field => ?_, free, chain, fun slot unused entry => ?_⟩)
    · exact outside (size.fields_subset_notes _ _ field)
    · exact outside (noted (.inr ⟨slot, unused, entry⟩))
  · exact .inr (.inl ((accounts.exists_leaked_iff h).2 (CacheView.mem_sum.2 ⟨cache, lost, page⟩)))

/-- What callers hold is idle. -/
theorem run_subset_idle {block : Block} (mem : block ∈ ledger.blocks) :
    block.run ⊆ shared.idle ledger :=
  (accounts.run_subset_bodies h mem).trans (accounts.bodies_subset_idle h)

end Ledger.Accounts

/-! ## Two runs -/

namespace AllocatorView.Describes

variable {view : AllocatorView} {allocator allocator' : Allocator} {store store' : CacheStore}
  {memory memory' : Memory} (h : view.Describes size allocator store memory)
  (h' : view.Describes size allocator' store' memory')

include h h'

theorem stats_eq (sound : view.table.Sound size) (regular : view.table.Regular size) :
    allocator'.stats store' = allocator.stats store := by
  funext bytes
  unfold Allocator.stats
  cases SizeClass.ofRequest? bytes with
  | none => rfl
  | some cls =>
    dsimp only
    rw [h.table.find_eq, h'.table.find_eq]
    cases found : view.table.find cls with
    | none => rfl
    | some ref =>
      obtain ⟨has, _⟩ := TableView.find_some sound regular found
      have same := (h.table.cacheOf sound regular has).cache_eq
        (h'.table.cacheOf sound regular has)
      show Except.ok _ = Except.ok _
      rw [Option.map_some, Option.map_some, same]

theorem allStats_eq : allocator'.allStats store' = allocator.allStats store := by
  have caches : allocator'.table.allCaches store' view.table.order =
      allocator.table.allCaches store view.table.order := by
    rw [CacheTable.allCaches, CacheTable.allCaches, h.table.table_eq h'.table]
    refine congrArg (_ :: ·) (List.map_congr_left fun address mem => ?_)
    rw [h.table.read_eq h'.table (view.table.order_perm.mem_iff.1 mem)]
  rw [Allocator.allStats, Allocator.allStats, h.table.caches_eq, h'.table.caches_eq, caches,
    h.table.registered, h'.table.registered]

end AllocatorView.Describes

/-- One view decides what can be seen. -/
theorem SharedView.Describes.observe_eq (h : view.Describes shared) (h' : view.Describes shared')
    (wide : 8 ≤ size.length) (reply : Reply) : shared'.observe reply = shared.observe reply := by
  have stats (i : Fin count) := (h.allocators i).stats_eq (h'.allocators i) (h.sound i).table
    (h.regular i)
  have allStats (i : Fin count) := (h.allocators i).allStats_eq (h'.allocators i)
  simp only [SharedHeap.observe, stats, allStats, h.pool.metered_eq h'.pool wide]

namespace Action.Alike

variable (alike : action.Alike action')

include alike

/-- Values that are written do not matter to the view. -/
theorem perform_eq (view : SharedView count) :
    view.perform size action' = view.perform size action := by
  cases alike <;> rfl

theorem permits (permitted : ledger.Permits action) : ledger.Permits action' := by
  cases alike with
  | same => exact permitted
  | write address length =>
    obtain ⟨holding, mem, inside⟩ := permitted
    rw [length] at inside
    exact ⟨holding, mem, inside⟩

end Action.Alike

namespace SharedHeap.Reachable

variable (fits : size.Fits maxObjectSize) (reachable : SharedHeap.Reachable shared ledger)

include fits reachable

/-- Heaps that resemble each other answer an action alike, and resemble each other again. -/
theorem perform_resembles (resembles : shared.Resembles shared' ledger)
    (permitted : ledger.Permits action) (alike : action.Alike action') :
    ∃ reply next next', SharedHeap.perform action shared = .ok reply next ∧
      SharedHeap.perform action' shared' = .ok reply next' ∧
      next'.observe reply = next.observe reply ∧
      next.Resembles next' (ledger.note action reply) := by
  obtain ⟨view, h, accounts⟩ := reachable.exists_view fits
  have h' := accounts.describes_of_resembles h fits.wide resembles
  obtain ⟨next, ends, described, accounted⟩ := h.perform_refines fits accounts permitted
  obtain ⟨next', ends', described', _⟩ :=
    h'.perform_refines fits accounts (alike.permits permitted)
  rw [alike.perform_eq] at ends' described'
  exact ⟨_, next, next', ends, ends', described.observe_eq described' fits.wide _,
    accounted.resembles described fits.wide described'⟩

/-- Heaps that resemble each other look alike all along a legal run, and resemble each other
in the end. -/
theorem trace_resembles {actions actions' : List (Action count)}
    (resembles : shared.Resembles shared' ledger) (legal : ledger.Legal shared actions)
    (alike : List.Forall₂ Action.Alike actions actions') :
    ∃ seen final final', SharedHeap.trace actions shared = .ok seen final ∧
      SharedHeap.trace actions' shared' = .ok seen final' ∧
      SharedHeap.Reachable final (ledger.noteAll actions (seen.map Observation.reply)) ∧
      final.Resembles final' (ledger.noteAll actions (seen.map Observation.reply)) := by
  induction alike generalizing shared shared' ledger with
  | nil => exact ⟨[], shared, shared', rfl, rfl, reachable, resembles⟩
  | @cons action action' actions actions' first rest ih =>
    obtain ⟨reply, next, next', ends, ends', looks, again⟩ :=
      reachable.perform_resembles fits resembles legal.1 first
    obtain ⟨seen, final, final', ends₁, ends₁', reached, resembled⟩ :=
      ih (reachable.step legal.1 ends) again (legal.2 _ _ ends)
    refine ⟨next.observe reply :: seen, final, final', ?_, ?_, reached, resembled⟩
    · rw [SharedHeap.trace, bind_ok ends, bind_ok get_ok, bind_ok ends₁]
      rfl
    · rw [SharedHeap.trace, bind_ok ends', bind_ok get_ok, looks, bind_ok ends₁']
      rfl

/-- A heap agrees with itself after a caller's write on all but idle bytes. -/
theorem agrees_of_write {address : UInt64} {values : List UInt8} {reply : Reply}
    (permitted : ledger.Permits (.request (.write address values)))
    (ends : SharedHeap.perform (.request (.write address values)) shared = .ok reply shared') :
    shared.Agrees shared' (shared.idle ledger)ᶜ := by
  obtain ⟨view, h, accounts⟩ := reachable.exists_view fits
  obtain ⟨holding, mem, inside⟩ := permitted
  have idle := accounts.run_subset_idle h (List.mem_map_of_mem mem)
  cases ends
  exact ⟨rfl, rfl, fun _ _ _ _ _ => rfl, (Memory.eqOn_setBytes _ address values).mono
    (Set.compl_subset_compl.2 (inside.trans idle))⟩

/-- **Idle bytes do not show.**  Take two heaps, the first one reachable, that agree on all
but idle bytes, and a legal run of the first.  The same actions on the second, with any other
values for callers to write, are answered with the same replies, statistics, page requests
and released pages after each action.  In the end the heaps agree again on all that is relied
on. -/
theorem trace_eq_of_idle {actions actions' : List (Action count)}
    (agrees : shared.Agrees shared' (shared.idle ledger)ᶜ) (legal : ledger.Legal shared actions)
    (alike : List.Forall₂ Action.Alike actions actions') :
    ∃ seen final final', SharedHeap.trace actions shared = .ok seen final ∧
      SharedHeap.trace actions' shared' = .ok seen final' ∧
      SharedHeap.Reachable final (ledger.noteAll actions (seen.map Observation.reply)) ∧
      final.Resembles final' (ledger.noteAll actions (seen.map Observation.reply)) := by
  obtain ⟨view, h, accounts⟩ := reachable.exists_view fits
  have apart := accounts.disjoint_idle h fits.wide
  have resembles : shared.Resembles shared' ledger :=
    { agrees with bytes := agrees.bytes.mono apart.subset_compl_right }
  exact reachable.trace_resembles fits resembles legal alike

end SharedHeap.Reachable

/-- A caller writes into an object and frees it, other values in another run.  The object
that is served next is the same one. -/
theorem SharedHeap.Reachable.trace_eq_of_idle_written :
    let further (value : UInt8) : List (Action 1) := [.request (.write 0x12051 [value]),
      .request (.free 0 0x12050), .request (.alloc 0 100)]
    ∃ (shared shared' final final' : SharedHeap (MeteredPool PageSize.default) 1)
      (ledger : Ledger 1) (seen : List (Observation PageSize.default 1)),
      Reachable shared ledger ∧ Reachable shared' ledger ∧
      shared.Agrees shared' (shared.idle ledger)ᶜ ∧
      shared'.heap.memory.byte 0x12050 ≠ shared.heap.memory.byte 0x12050 ∧
      SharedHeap.trace (further 7) shared = .ok seen final ∧
      SharedHeap.trace (further 8) shared' = .ok seen final' ∧
      seen.map Observation.reply = [.done, .done, .object (.ok 0x12050)] := by
  intro further
  have fits : PageSize.default.Fits maxObjectSize := ⟨by decide, by decide +kernel⟩
  let actions : List (Action 1) :=
    [.request (.init 0), .addMemory 0x10010 0x4000, .request (.alloc 0 100)]
  have legal : ({} : Ledger 1).Legal (.fresh PageSize.default 1 {}) actions :=
    ⟨trivial, fun _ _ _ => ⟨nofun, fun _ _ _ => ⟨trivial, fun _ _ _ => trivial⟩⟩⟩
  let replies : List Reply := [.done, .region (.ok ()), .object (.ok 0x12050)]
  let ledger := ({} : Ledger 1).noteAll actions replies
  obtain ⟨shared, ends, reachable⟩ : ∃ shared, _ ∧ Reachable shared ledger :=
    Reachable.run_of_answers fits (.start {}) legal (by decide +kernel)
  let holding : Holding 1 := ⟨0, ⟨0x12050, 112⟩, false⟩
  have mem : holding ∈ ledger.holdings := by decide +kernel
  have within (offset : UInt64) (value : UInt8) (small : offset.toNat < 112) :
      ledger.Permits (.request (.write (0x12050 + offset) [value])) :=
    ⟨holding, mem, Memory.run_offset_subset small⟩
  -- The other heap is the one after a write of another value.
  let value := shared.heap.memory.byte 0x12050 + 1
  let written := { shared with heap :=
    { shared.heap with memory := shared.heap.memory.setBytes 0x12050 [value] } }
  have differs : written.heap.memory.byte 0x12050 ≠ shared.heap.memory.byte 0x12050 := by
    show ((shared.heap.memory.setByte 0x12050 value).byte 0x12050) ≠ _
    simp [value]
  have wrote : SharedHeap.perform (.request (.write 0x12050 [value])) shared =
    .ok .done written := rfl
  have permitted := within 0 value (by decide)
  have agrees := reachable.agrees_of_write fits permitted wrote
  have legal' : ledger.Legal shared (further 7) :=
    ⟨within 1 7 (by decide), fun _ _ _ => ⟨fun _ => ⟨holding, mem, ⟨rfl, rfl⟩, rfl⟩, fun _ _ _ =>
      ⟨trivial, fun _ _ _ => trivial⟩⟩⟩
  have alike : List.Forall₂ Action.Alike (further 7) (further 8) :=
    .cons (.write _ rfl) (.cons (.same _) (.cons (.same _) .nil))
  obtain ⟨seen, final, final', ends₁, ends₂, _⟩ :=
    reachable.trace_eq_of_idle fits agrees legal' alike
  let all : SharedHeap.Op (MeteredPool PageSize.default) 1 (List (Observation _ 1)) :=
    actions.mapM SharedHeap.perform >>= fun _ => SharedHeap.trace (further 7)
  have whole : all (.fresh PageSize.default 1 {}) = .ok seen final := (bind_ok ends).trans ends₁
  have answers : (all.run' (.fresh PageSize.default 1 {})).map (·.map Observation.reply) =
      some [.done, .done, .object (.ok 0x12050)] := by
    decide +kernel
  rw [run'_ok whole] at answers
  exact ⟨shared, written, final, final', ledger, seen, reachable, reachable.step permitted wrote,
    agrees, differs, ends₁, ends₂, Option.some.inj answers⟩

end SlabHeap
