import SlabHeap.Proofs.Accounting
import SlabHeap.Proofs.TableUpdates

/-!
# Every page is given back once

The allocators and the page source talk to each other in two ways: the source is asked for
a page, and a page is given back.  `Recorded` is a source that writes down what is asked of
another one, and `PageModel.recorded` says what is known of it: the pages in use are those
that were handed out and not given back since (`PageCall.HandedOut`), and only such pages
are given back (`PageCall.Balanced`).

What a plan asks for is what is recorded (`Plan.Runs.recorded`).  So it is read off the plans
that an allocation never gives a page back and a teardown takes none.  A free gives back the
page of its object exactly if no other live object is in it, for then no slot of the slab is
taken any more (`CacheView.Regular.emptied_iff_alone`).

All of this holds over any page source that can be described at all, whatever it answers
(`SharedHeap.ReachableOver`).
-/

namespace SlabHeap

/-! ## Calls to a page source -/

/-- What passes between allocators and their page source. -/
inductive PageCall where
  /-- A page was asked for, and this was the answer. -/
  | take (answer : Except AllocError UInt64)
  /-- A page was given back. -/
  | give (page : UInt64)
  deriving DecidableEq

namespace PageCall

/-- The page was handed out and not given back since, by calls with the latest first. -/
def HandedOut (page : UInt64) : List PageCall → Prop
  | [] => False
  | take answer :: earlier => answer = .ok page ∨ HandedOut page earlier
  | give other :: earlier => other ≠ page ∧ HandedOut page earlier

/-- Every page that was given back was handed out by then. -/
def Balanced : List PageCall → Prop
  | [] => True
  | take _ :: earlier => Balanced earlier
  | give page :: earlier => HandedOut page earlier ∧ Balanced earlier

end PageCall

/-- A page source whose calls are written down. -/
structure Recorded (σ : Type) where
  /-- The source that answers. -/
  source : σ
  /-- The calls made so far, the latest first. -/
  calls : List PageCall := []

instance {σ : Type} [PageSource σ] : PageSource (Recorded σ) where
  takePage recorded memory := do
    let (answer, source, memory) ← PageSource.takePage recorded.source memory
    return (answer, { source, calls := .take answer :: recorded.calls }, memory)
  givePage page recorded memory := do
    let (source, memory) ← PageSource.givePage page recorded.source memory
    return ({ source, calls := .give page :: recorded.calls }, memory)

variable {size : PageSize} {σ : Type} [PageSource σ]

/-- The calls agree with the pages in use. -/
structure PageCall.Agrees (calls : List PageCall) (held : Multiset UInt64) : Prop where
  balanced : Balanced calls
  handedOut : ∀ page, HandedOut page calls ↔ page ∈ held

/-- What is known of a source is known of the recorded one, and its calls as well. -/
def PageModel.recorded (model : PageModel size σ) : PageModel size (Recorded σ) where
  View := model.View × List PageCall
  Describes view held recorded memory :=
    model.Describes view.1 held recorded.source memory ∧ recorded.calls = view.2 ∧
      PageCall.Agrees view.2 held
  Take view answer view' := model.Take view.1 answer view'.1 ∧ view'.2 = .take answer :: view.2
  Give view page view' := model.Give view.1 page view'.1 ∧ view'.2 = .give page :: view.2
  nodup h := model.nodup h.1
  aligned h := model.aligned h.1
  nonzero h := model.nonzero h.1
  congr h same := ⟨model.congr h.1 same, h.2⟩
  take {view held recorded memory} h := by
    obtain ⟨known, calls, agrees⟩ := h
    obtain ⟨answer, source, state, memory', taken, allowed, same, known'⟩ := model.take known
    refine ⟨answer, (source, .take answer :: view.2), ⟨state, .take answer :: recorded.calls⟩,
      memory', ?_, ⟨allowed, rfl⟩, same, known', congrArg (.take answer :: ·) calls,
      agrees.balanced, fun page => ?_⟩
    · simp only [PageSource.takePage, taken, bind, Except.bind, pure, Except.pure]
    · simp only [PageCall.HandedOut, agrees.handedOut, Multiset.mem_add]
      cases answer <;> simp [granted, eq_comm]
  give {view page held recorded memory} h := by
    obtain ⟨known, calls, agrees⟩ := h
    have fresh := (Multiset.nodup_cons.1 (model.nodup known)).1
    obtain ⟨source, state, memory', given, allowed, same, known'⟩ := model.give known
    refine ⟨(source, .give page :: view.2), ⟨state, .give page :: recorded.calls⟩, memory', ?_,
      ⟨allowed, rfl⟩, same, known', congrArg (.give page :: ·) calls,
      ⟨(agrees.handedOut page).2 (Multiset.mem_cons_self page held), agrees.balanced⟩,
      fun other => ?_⟩
    · simp only [PageSource.givePage, given, bind, Except.bind, pure, Except.pure]
    · simp only [PageCall.HandedOut, agrees.handedOut, Multiset.mem_cons]
      constructor
      · rintro ⟨differ, same | held⟩
        · exact absurd same.symm differ
        · exact held
      · intro held
        exact ⟨fun same => fresh (same ▸ held), .inr held⟩

/-! ## What plans ask for -/

namespace Plan

variable {α β : Type} {allowed : PageCall → Prop}

/-- All calls of a plan are allowed, whatever the answers are. -/
def Calls (allowed : PageCall → Prop) : Plan α → Prop
  | done _ => True
  | take next => ∀ answer, allowed (.take answer) ∧ (next answer).Calls allowed
  | give page next => allowed (.give page) ∧ next.Calls allowed

theorem Calls.bind {plan : Plan α} {rest : α → Plan β} (first : plan.Calls allowed)
    (second : ∀ a, (rest a).Calls allowed) : (plan >>= rest).Calls allowed := by
  induction plan with
  | done a => exact second a
  | take next ih => exact fun answer => ⟨(first answer).1, ih answer (first answer).2⟩
  | give page next ih => exact ⟨first.1, ih first.2⟩

/-- The calls of a run are recorded, and they are allowed. -/
theorem Runs.recorded {model : PageModel size σ} {plan : Plan α} {a : α}
    {source source' : model.recorded.View} (run : plan.Runs model.recorded source a source')
    (calls : plan.Calls allowed) :
    ∃ new : List PageCall, source'.2 = new ++ source.2 ∧ ∀ call ∈ new, allowed call := by
  induction plan generalizing source with
  | done b =>
    obtain ⟨rfl, rfl⟩ := run
    exact ⟨[], rfl, nofun⟩
  | take next ih =>
    obtain ⟨answer, middle, ⟨_, noted⟩, run⟩ := run
    obtain ⟨new, later, all⟩ := ih answer run (calls answer).2
    refine ⟨new ++ [.take answer], ?_,
      List.forall_mem_append.2 ⟨all, List.forall_mem_singleton.2 (calls answer).1⟩⟩
    rw [later, noted, List.append_assoc]
    rfl
  | give page next ih =>
    obtain ⟨middle, ⟨_, noted⟩, run⟩ := run
    obtain ⟨new, later, all⟩ := ih run calls.2
    refine ⟨new ++ [.give page], ?_,
      List.forall_mem_append.2 ⟨all, List.forall_mem_singleton.2 calls.1⟩⟩
    rw [later, noted, List.append_assoc]
    rfl

end Plan

/-- The call asks for a page. -/
def PageCall.IsTake : PageCall → Prop
  | take _ => True
  | give _ => False

/-- The call gives a page back. -/
def PageCall.IsGive : PageCall → Prop
  | take _ => False
  | give _ => True

namespace CacheView

variable (view : CacheView)

theorem alloc_calls : (view.alloc size).Calls PageCall.IsTake := by
  unfold alloc
  split
  · rintro (error | page) <;> exact ⟨trivial, trivial⟩
  · trivial

theorem free_calls (object : UInt64) : (view.free size object).Calls PageCall.IsGive := by
  unfold free
  dsimp only
  split
  · exact ⟨trivial, trivial⟩
  · trivial

theorem frees_calls (addresses : List UInt64) :
    (addresses.foldlM (CacheView.free size) view).Calls PageCall.IsGive := by
  induction addresses generalizing view with
  | nil => trivial
  | cons address rest ih =>
    rw [List.foldlM_cons]
    exact (view.free_calls address).bind fun view' => ih view'

end CacheView

namespace TableView

variable (view : TableView) (cls : SizeClass)

theorem allocFrom_calls (ref : CacheRef) : (view.allocFrom size ref).Calls PageCall.IsTake :=
  ((view.cache ref).alloc_calls).bind fun _ => trivial

theorem findOrCreate_calls : (view.findOrCreate size cls).Calls PageCall.IsTake := by
  unfold findOrCreate create
  split
  · trivial
  · split
    · refine view.bootstrap.alloc_calls.bind fun served => ?_
      split <;> trivial
    · trivial

theorem alloc_calls : (view.alloc size cls).Calls PageCall.IsTake := by
  refine (view.findOrCreate_calls cls).bind fun found => ?_
  split
  · trivial
  · exact found.2.allocFrom_calls _

theorem reset_calls : (view.reset size).Calls PageCall.IsGive :=
  (view.bootstrap.frees_calls view.order).bind fun _ => trivial

end TableView

namespace SharedView

variable {count : Nat} (view : SharedView count) (i : Fin count)

/-- An allocation only takes pages. -/
theorem alloc_calls (bytes : UInt64) :
    (view.plan size (.alloc i bytes)).Calls PageCall.IsTake := by
  refine Plan.Calls.bind ?_ fun _ => trivial
  unfold AllocatorView.alloc
  split
  · split
    · trivial
    · exact ((view.allocators i).table.alloc_calls _).bind fun _ => trivial
  · trivial

/-- A teardown only gives pages back. -/
theorem teardown_calls : (view.plan size (.teardown i)).Calls PageCall.IsGive := by
  refine Plan.Calls.bind ?_ fun _ => trivial
  unfold AllocatorView.teardown
  split
  · exact (view.allocators i).table.reset_calls.bind fun _ => trivial
  · trivial

end SharedView

/-! ## Freeing the last object of a page -/

namespace CacheView

variable {view view' : CacheView} {object : UInt64}

/-- A slab becomes empty if the object was alone in it. -/
theorem Regular.emptied_iff_alone (regular : view.Regular size) (mem : object ∈ view.objects size) :
    (view.returned size object).Emptied size (size.pageOf object) ↔
      ∀ other ∈ view.objects size, size.pageOf other = size.pageOf object → other = object := by
  obtain ⟨front, free, back, located⟩ := regular.exists_located mem
  obtain ⟨rest, before, _, _⟩ := located.split regular
  have whole := regular.card_within (before.mem_iff.2 List.mem_cons_self)
  have inside : object ∈ size.within (size.pageOf object) (view.objects size) :=
    PageSize.mem_within.2 ⟨mem, rfl⟩
  have nodup : (size.within (size.pageOf object) (view.objects size)).Nodup :=
    regular.nodup_objects.filter _
  dsimp only at whole
  rw [located.emptied_iff regular]
  constructor
  · intro all other mem' same
    have one : (size.within (size.pageOf object) (view.objects size)).card = 1 := by omega
    obtain ⟨single, eq⟩ := Multiset.card_eq_one.1 one
    have inside' : other ∈ size.within (size.pageOf object) (view.objects size) :=
      PageSize.mem_within.2 ⟨mem', same⟩
    rw [eq, Multiset.mem_singleton] at inside inside'
    rw [inside', inside]
  · intro alone
    have eq : size.within (size.pageOf object) (view.objects size) = {object} := by
      refine (Multiset.Nodup.ext nodup (Multiset.nodup_singleton object)).2 fun other => ?_
      rw [PageSize.mem_within, Multiset.mem_singleton]
      constructor
      · rintro ⟨mem', same⟩
        exact alone other mem' same
      · rintro rfl
        exact ⟨mem, rfl⟩
    rw [eq, Multiset.card_singleton] at whole
    omega

/-- A page is given back, once, if its slab became empty. -/
theorem free_recorded {model : PageModel size σ} {source source' : model.recorded.View}
    (run : (view.free size object).Runs model.recorded source view' source') :
    source'.2 = (if (view.returned size object).Emptied size (size.pageOf object) then
      [.give (size.pageOf object)] else []) ++ source.2 := by
  unfold free at run
  dsimp only at run
  split at run
  · rename_i emptied
    obtain ⟨middle, ⟨_, noted⟩, _, rfl⟩ := run
    rw [if_pos emptied]
    exact noted
  · rename_i some
    obtain ⟨_, rfl⟩ := run
    rw [if_neg some]
    rfl

end CacheView

namespace Ledger

variable {count : Nat}

/-- All live objects: the callers' own, leaked ones among them, and those that caches are
stored in. -/
def live (ledger : Ledger count) (storages : Fin count → List UInt64) : Multiset UInt64 :=
  (ledger.holdings.map (·.block.address) : Multiset UInt64) + ∑ i, (storages i : Multiset UInt64)

/-- No other live object is in the page of an object. -/
def Alone (size : PageSize) (ledger : Ledger count) (storages : Fin count → List UInt64)
    (object : UInt64) : Prop :=
  ∀ other ∈ ledger.live storages, size.pageOf other = size.pageOf object → other = object

instance (size : PageSize) (ledger : Ledger count) (storages : Fin count → List UInt64)
    (object : UInt64) : Decidable (ledger.Alone size storages object) :=
  inferInstanceAs (Decidable (∀ other ∈ ledger.live storages, _))

end Ledger

section Requests

variable {count : Nat} {view view' : SharedView count} {ledger : Ledger count} {α : Type}
  {shared : SharedHeap α count} {i : Fin count} {cache : CacheView} {object : UInt64}

/-- The objects of all caches are the live objects. -/
theorem Ledger.Accounts.mem_live (accounts : ledger.Accounts size view)
    (h : view.Houses size shared) :
    object ∈ ledger.live (fun i => (view.allocators i).table.order) ↔
      ∃ cache ∈ view.caches, object ∈ cache.objects size := by
  rw [Ledger.live, accounts.addresses_eq h, Multiset.mem_map]
  constructor
  · rintro ⟨block, listed, rfl⟩
    obtain ⟨cache, mem, own⟩ := CacheView.mem_sum.1 listed
    exact ⟨cache, mem, (CacheView.mem_blocks.1 own).1⟩
  · rintro ⟨cache, mem, own⟩
    exact ⟨⟨object, cache.objectSize⟩,
      CacheView.mem_sum.2 ⟨cache, mem, CacheView.mem_blocks.2 ⟨own, rfl⟩⟩, rfl⟩

/-- No cache shares a page with another, so it is enough to look at the objects of one. -/
theorem Ledger.Accounts.alone_iff (accounts : ledger.Accounts size view)
    (h : view.Houses size shared) (mem : cache ∈ view.caches) (own : object ∈ cache.objects size) :
    ledger.Alone size (fun i => (view.allocators i).table.order) object ↔
      ∀ other ∈ cache.objects size, size.pageOf other = size.pageOf object → other = object := by
  constructor
  · intro alone other own' same
    exact alone other ((accounts.mem_live h).2 ⟨cache, mem, own'⟩) same
  · intro alone other listed same
    obtain ⟨cache', mem', own'⟩ := (accounts.mem_live h).1 listed
    have held := (h.regular_of_mem mem (CacheView.slabs_ne_nil_of_object own)).pageOf_mem own
    have held' := (h.regular_of_mem mem' (CacheView.slabs_ne_nil_of_object own')).pageOf_mem own'
    obtain rfl := CacheView.eq_of_page h.nodup mem mem' held (same ▸ held')
    exact alone other own' same

/-- The pages of the live objects are those that were taken. -/
theorem Ledger.Accounts.mem_pages_live (accounts : ledger.Accounts size view)
    (h : view.Houses size shared) {page : UInt64} :
    page ∈ (ledger.live fun i => (view.allocators i).table.order).map size.pageOf ↔
      page ∈ view.held := by
  rw [← accounts.dedup_pages h, Multiset.mem_dedup]
  rfl

/-- What a request asks of the page source, the latest first: an allocation takes pages and
a teardown gives pages back.  A free gives the page of its object back, once, if that was the
last live object of the page.  Nothing else is asked. -/
def Request.CallsFor (size : PageSize) (ledger : Ledger count) (storages : Fin count → List UInt64)
    (calls : List PageCall) : Request count → Prop
  | .alloc _ _ => ∀ call ∈ calls, call.IsTake
  | .teardown _ => ∀ call ∈ calls, call.IsGive
  | .free i object => calls = if ledger.opened i ∧ ledger.Alone size storages object then
      [.give (size.pageOf object)] else []
  | .init _ => calls = []
  | .write _ _ => calls = []

namespace SharedView.Houses

variable (h : view.Houses size shared) (accounts : ledger.Accounts size view)
  {model : PageModel size σ} {source source' : model.recorded.View} {reply : Reply}

include h accounts

theorem free_recorded (permitted : ledger.Permits (.request (.free i object)))
    (run : (view.plan size (.free i object)).Runs model.recorded source (reply, view') source') :
    source'.2 = (if ledger.opened i ∧
      ledger.Alone size (fun i => (view.allocators i).table.order) object then
        [.give (size.pageOf object)] else []) ++ source.2 := by
  cases opened : (view.allocators i).initialized with
  | false =>
    rw [plan_free_closed opened] at run
    obtain ⟨_, rfl⟩ := run
    rw [accounts.opened, opened, if_neg fun h => Bool.false_ne_true h.1]
    rfl
  | true =>
    obtain ⟨block, rfl, held⟩ := accounts.exists_user permitted opened
    have sound := (h.sound i).table
    have registered := (h.sound i).registered.trans opened
    obtain ⟨ref, _, _, mem, own, freed⟩ := sound.free_eq (h.regular i) registered held
    have listed := mem_caches.2 (.inl ⟨i, mem⟩)
    have regular := h.regular_of_mem listed (CacheView.slabs_ne_nil_of_object own)
    -- the plan is that of the cache, and the rest of it asks for nothing
    rw [SharedView.plan, AllocatorView.free, if_pos opened, freed, TableView.freeTo] at run
    obtain ⟨_, _, run, _, rfl⟩ := run.exists_of_bind
    obtain ⟨_, _, run, _, rfl⟩ := run.exists_of_bind
    obtain ⟨_, _, run, _, rfl⟩ := run.exists_of_bind
    rw [CacheView.free_recorded run]
    simp only [accounts.opened, opened, true_and, accounts.alone_iff h listed own,
      regular.emptied_iff_alone own]

/-- A request asks for what it should. -/
theorem request_recorded {request : Request count}
    (permitted : ledger.Permits (.request request))
    (run : (view.plan size request).Runs model.recorded source (reply, view') source') :
    ∃ new, source'.2 = new ++ source.2 ∧
      request.CallsFor size ledger (fun i => (view.allocators i).table.order) new := by
  cases request with
  | init i =>
    obtain ⟨_, rfl⟩ := run
    exact ⟨[], rfl, rfl⟩
  | teardown i => exact run.recorded (view.teardown_calls i)
  | alloc i bytes => exact run.recorded (view.alloc_calls i bytes)
  | free i object => exact ⟨_, h.free_recorded accounts permitted run, rfl⟩
  | write address values =>
    obtain ⟨_, rfl⟩ := run
    exact ⟨[], rfl, rfl⟩

end SharedView.Houses

end Requests

/-! ## Runs over any page source -/

section Runs

variable {count : Nat} {model : PageModel size σ}

/-- What permitted requests lead to over a page source that is described, from allocators that
were never opened.  In between the source may change, as long as it keeps to its description:
it may be given more memory, or begin to refuse. -/
inductive SharedHeap.ReachableOver (model : PageModel size σ) :
    SharedHeap (Recorded σ) count → Ledger count → Prop
  | start {heap : Heap (Recorded σ)} {source : model.View} :
    model.Describes source 0 heap.source.source heap.memory → heap.source.calls = [] →
      ReachableOver model { heap } {}
  | shift {shared : SharedHeap (Recorded σ) count} {ledger : Ledger count} {source : σ}
      {memory : Memory} :
    ReachableOver model shared ledger →
      model.Shifts shared.heap.source.source shared.heap.memory source memory →
      ReachableOver model { shared with
        heap := { shared.heap with source := { shared.heap.source with source }, memory } } ledger
  | step {shared shared' : SharedHeap (Recorded σ) count} {ledger : Ledger count}
      {request : Request count} {reply : Reply} :
    ReachableOver model shared ledger → ledger.Permits (.request request) →
      SharedHeap.serve size request shared = .ok reply shared' →
      ReachableOver model shared' (ledger.note (.request request) reply)

namespace SharedHeap.ReachableOver

variable {shared : SharedHeap (Recorded σ) count} {ledger : Ledger count}

/-- Such a heap is as a view has it, whatever the page source is. -/
theorem exists_view (fits : size.Fits maxObjectSize)
    (reachable : ReachableOver model shared ledger) :
    ∃ (view : SharedView count) (source : model.recorded.View), view.Houses size shared ∧
      model.recorded.Describes source view.held shared.heap.source shared.heap.memory ∧
      ledger.Accounts size view := by
  induction reachable with
  | @start heap source known none =>
    obtain ⟨housed, held⟩ := SharedView.Houses.fresh size count heap
    refine ⟨{}, (source, []), housed, ?_, .start size count⟩
    rw [held]
    exact ⟨known, none, trivial, fun page => by simp [PageCall.HandedOut]⟩
  | shift _ shifts ih =>
    obtain ⟨view, source, housed, ⟨known, calls⟩, accounts⟩ := ih
    obtain ⟨⟨source', known'⟩, same⟩ := shifts source.1 view.held known
    exact ⟨view, (source', source.2), housed.congr rfl rfl same, ⟨known', calls⟩, accounts⟩
  | step _ permitted ends ih =>
    obtain ⟨view, source, housed, known, accounts⟩ := ih
    obtain ⟨reply, view', shared', source', ends', _, housed', known', accounts'⟩ :=
      housed.request_serves known accounts fits permitted
    rw [ends] at ends'
    cases ends'
    exact ⟨view', source', housed', known', accounts'⟩

/-- **Every page is given back once.**  Only pages that were handed out and not given back
since are given back, and the pages in use are those of the live objects.  Each permitted
request ends and asks the source for what it should: only an allocation takes pages, and a
free gives the page of its object back exactly if that was the last live one in it. -/
theorem page_protocol (fits : size.Fits maxObjectSize)
    (reachable : ReachableOver model shared ledger) :
    PageCall.Balanced shared.heap.source.calls ∧
      (∀ i, (shared.allocators.get i).initialized = ledger.opened i) ∧
      ∃ storages : Fin count → List UInt64,
      (∀ i, (shared.allocators.get i).table.storages shared.heap.store = .ok (storages i)) ∧
      (∀ page, PageCall.HandedOut page shared.heap.source.calls ↔
        page ∈ (ledger.live storages).map size.pageOf) ∧
      ∀ request, ledger.Permits (.request request) → ∃ reply shared' calls,
        SharedHeap.serve size request shared = .ok reply shared' ∧
        ReachableOver model shared' (ledger.note (.request request) reply) ∧
        shared'.heap.source.calls = calls ++ shared.heap.source.calls ∧
        request.CallsFor size ledger storages calls := by
  obtain ⟨view, source, housed, known, accounts⟩ := reachable.exists_view fits
  obtain ⟨_, noted, agrees⟩ := id known
  rw [noted]
  refine ⟨agrees.balanced,
    fun i => (housed.allocators i).initialized.trans (accounts.opened i).symm,
    fun i => (view.allocators i).table.order,
    fun i => (housed.allocators i).table.storages_eq, fun page => ?_, fun request permitted => ?_⟩
  · rw [agrees.handedOut, accounts.mem_pages_live housed]
  · obtain ⟨reply, view', shared', source', ends, run, _, ⟨_, noted', _⟩, _⟩ :=
      housed.request_serves known accounts fits permitted
    obtain ⟨calls, later, asked⟩ := housed.request_recorded accounts permitted run
    exact ⟨reply, shared', calls, ends, reachable.step permitted ends, noted'.trans later, asked⟩

/-- An object that is alone in its page is freed, over a metered pool. -/
theorem page_protocol_free :
    ∃ (wide : 8 ≤ PageSize.default.length)
      (shared shared' : SharedHeap (Recorded (MeteredPool PageSize.default)) 1)
      (ledger : Ledger 1) (storages : Fin 1 → List UInt64),
      ReachableOver (MeteredPool.model wide) shared ledger ∧
      SharedHeap.serve PageSize.default (.free 0 0x12050) shared = .ok .done shared' ∧
      ledger.Alone PageSize.default storages 0x12050 ∧
      shared.heap.source.calls = [.take (.ok 0x12000), .take (.ok 0x11000)] ∧
      shared'.heap.source.calls = .give 0x12000 :: shared.heap.source.calls := by
  have fits : PageSize.default.Fits maxObjectSize := ⟨by decide, by decide +kernel⟩
  let empty : Heap (MeteredPool PageSize.default) := { source := {} }
  have known : ({} : PoolView).Describes 0 empty.source empty.memory := .fresh {}
  have fresh : ∀ page ∈ (Extent.mk 0x10010 0x4000).pages PageSize.default,
      page ∉ ({} : PoolView).added := fun _ _ => Multiset.notMem_zero _
  obtain ⟨heap, added, described, _⟩ := HeapM.addMemory_adds known fresh
  let requests : SharedHeap.Op (Recorded (MeteredPool PageSize.default)) 1
      (Reply × List PageCall × Reply × List PageCall) := do
    let _ ← SharedHeap.serve PageSize.default (.init 0)
    let served ← SharedHeap.serve PageSize.default (.alloc 0 100)
    let before ← get
    let freed ← SharedHeap.serve PageSize.default (.free 0 0x12050)
    let after ← get
    return (served, before.heap.source.calls, freed, after.heap.source.calls)
  have tested : (match HeapM.addMemory 0x10010 0x4000 empty with
      | .ok _ heap => requests.run' { heap := { heap with source := { source := heap.source } } }
      | .error _ _ => none) = some (.object (.ok 0x12050),
        [.take (.ok 0x12000), .take (.ok 0x11000)], .done,
        [.give 0x12000, .take (.ok 0x12000), .take (.ok 0x11000)]) := by
    decide +kernel
  rw [added] at tested
  obtain ⟨_, ended⟩ := exists_ok_of_run' tested
  obtain ⟨_, opened, init, ended⟩ := exists_ok_of_bind ended
  obtain ⟨served, shared, alloc, ended⟩ := exists_ok_of_bind ended
  rw [bind_ok get_ok] at ended
  obtain ⟨freed, shared', free, ended⟩ := exists_ok_of_bind ended
  rw [bind_ok get_ok] at ended
  have results := (EStateM.Result.ok.inj ended).1
  simp only [Prod.mk.injEq] at results
  obtain ⟨rfl, before, rfl, after⟩ := results
  have start : ReachableOver (MeteredPool.model fits.wide)
      ({ heap := { heap with source := { source := heap.source } } } :
        SharedHeap (Recorded (MeteredPool PageSize.default)) 1) {} := .start described rfl
  have reachable := (start.step (by exact trivial) init).step (by exact trivial) alloc
  obtain ⟨_, _, storages, _, _, serves⟩ := reachable.page_protocol fits
  obtain ⟨_, _, calls, ends, _, later, asked⟩ := serves (.free 0 0x12050)
    fun _ => ⟨_, List.mem_cons_self, ⟨rfl, rfl⟩, rfl⟩
  rw [free] at ends
  cases ends
  rw [before, after] at later
  refine ⟨fits.wide, shared, shared', _, storages, reachable, free, ?_, before, ?_⟩
  · refine Decidable.byContradiction fun others => ?_
    rw [Request.CallsFor, if_neg fun h => others h.2] at asked
    rw [asked] at later
    cases later
  · rw [before, after]

end SharedHeap.ReachableOver

end Runs

end SlabHeap
