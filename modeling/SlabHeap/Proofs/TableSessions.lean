import SlabHeap.Proofs.Accounting
import SlabHeap.Proofs.TableUpdates

/-!
# Tables in use

A table is asked for caches one request after another, over any page source that a
`PageModel` describes.  A `TableHistory` lists the requests and the answers to them.  A
class has a cache exactly if one was created since the last reset
(`TableHistory.Yields`), and the cache holds what was served from it and not put back
(`TableHistory.live`).  Both are functions of what was said, not of the heap.

Each permitted request ends and leads to a table that is as a view has it, where the
view has the caches and the objects of the history (`TableSession.Refines`, one lemma
for each request).  So all reachable sessions are backed by a view
(`TableSession.Reachable.exists_view`).
-/

namespace SlabHeap

/-! ## Requests -/

/-- What is asked of a table. -/
inductive TableAction where
  /-- Let the bootstrap cache be found. -/
  | register
  /-- Drop all caches. -/
  | reset
  /-- Find the cache of a class. -/
  | find (cls : SizeClass)
  /-- Find the cache of a class, or create it. -/
  | findOrCreate (cls : SizeClass)
  /-- Serve an object from a cache. -/
  | alloc (ref : CacheRef)
  /-- Put an object back into a cache. -/
  | free (ref : CacheRef) (object : UInt64)
  deriving DecidableEq

/-- What a request is answered with. -/
inductive TableReply where
  /-- Nothing to say. -/
  | done
  /-- The cache, if there is one. -/
  | found (answer : Option CacheRef)
  /-- The cache, or why there is none. -/
  | created (answer : Except AllocError CacheRef)
  /-- An object, or why there is none. -/
  | object (answer : Except AllocError UInt64)
  deriving DecidableEq

/-- A table over a heap. -/
structure TableSession (σ : Type) where
  /-- The heap. -/
  heap : Heap σ
  /-- The table. -/
  table : CacheTable := {}

namespace TableSession

variable {σ α : Type}

/-- Operations on a table and its heap. -/
abbrev Op (σ : Type) := EStateM Fault (TableSession σ)

/-- Run an operation on the heap. -/
def onHeap (operation : HeapM σ α) : Op σ α := fun session =>
  match operation session.heap with
  | .ok a heap => .ok a { session with heap }
  | .error fault heap => .error fault { session with heap }

/-- Go on with another table. -/
def setTable (table : CacheTable) : Op σ Unit := modify fun session => { session with table }

/-- Perform a request. -/
def perform [PageSource σ] (size : PageSize) : TableAction → Op σ TableReply
  | .register => do
    setTable (← get).table.register
    return .done
  | .reset => do
    setTable (← onHeap ((← get).table.reset size))
    return .done
  | .find cls => do
    let session ← get
    return .found (← onHeap (HeapM.check (session.table.find session.heap.store cls)))
  | .findOrCreate cls => do
    let (answer, table) ← onHeap ((← get).table.provide size cls)
    setTable table
    return .created answer
  | .alloc ref => do
    match ← onHeap ((← get).table.allocFrom size ref) with
    | .error error => return .object (.error error)
    | .ok (object, table) =>
      setTable table
      return .object (.ok object)
  | .free ref object => do
    setTable (← onHeap ((← get).table.freeTo size ref object))
    return .done

end TableSession

/-! ## Histories -/

/-- Requests and the answers to them, the latest first. -/
abbrev TableHistory := List (TableAction × TableReply)

namespace TableHistory

/-- What was asked since the last reset. -/
def sinceReset : TableHistory → TableHistory
  | [] => []
  | (.reset, _) :: _ => []
  | entry :: rest => entry :: sinceReset rest

/-- The cache was created for the class since the last reset, or it is the bootstrap cache
and was registered since then. -/
def Yields (history : TableHistory) (cls : SizeClass) (ref : CacheRef) : Prop :=
  if cls = bootstrapClass then ref = .bootstrap ∧ (.register, .done) ∈ sinceReset history
  else (.findOrCreate cls, .created (.ok ref)) ∈ sinceReset history

/-- The live objects of a cache after a request. -/
def liveAfter (ref : CacheRef) (objects : List UInt64) : TableAction × TableReply → List UInt64
  | (.alloc other, .object (.ok object)) => if other = ref then object :: objects else objects
  | (.free other object, _) => if other = ref then objects.erase object else objects
  | (.reset, _) => if ref = .bootstrap then objects else []
  | _ => objects

/-- What was served from a cache and not put back.  A reset forgets all caches but the
bootstrap cache. -/
def live (ref : CacheRef) : TableHistory → List UInt64
  | [] => []
  | entry :: rest => liveAfter ref (live ref rest) entry

/-- What may be asked: serve from a cache that can be found and has slots, and put back
what is live there. -/
def Permits (size : PageSize) (history : TableHistory) : TableAction → Prop
  | .alloc ref => ∃ cls, Yields history cls ref ∧ size.Fits cls.size
  | .free ref object => (∃ cls, Yields history cls ref) ∧ object ∈ live ref history
  | _ => True

/-- What is answered: a class finds its cache, and is not created again. -/
def Answers (history : TableHistory) : TableAction → TableReply → Prop
  | .find cls, reply => ∃ answer, reply = .found answer ∧
    ∀ ref, answer = some ref ↔ Yields history cls ref
  | .findOrCreate cls, reply => ∀ ref, Yields history cls ref → reply = .created (.ok ref)
  | _, _ => True

end TableHistory

open TableHistory

section

variable {size : PageSize} {σ : Type} [PageSource σ] {model : PageModel size σ}
  {session session' : TableSession σ} {history : TableHistory} {view view' : TableView}
  {lost : Multiset UInt64} {ref : CacheRef} {cls : SizeClass} {object : UInt64}
  {action : TableAction} {reply : TableReply}

/-- What permitted requests lead to, from a table without caches over a source that handed
out no page. -/
inductive TableSession.Reachable (model : PageModel size σ) :
    TableSession σ → TableHistory → Prop
  | start {heap : Heap σ} {source : model.View} :
    model.Describes source 0 heap.source heap.memory → Reachable model { heap } []
  | shift {session : TableSession σ} {history : TableHistory} {source : σ} {memory : Memory} :
    Reachable model session history →
      model.Shifts session.heap.source session.heap.memory source memory →
      Reachable model { session with heap := { session.heap with source, memory } } history
  | step {session session' : TableSession σ} {history : TableHistory} {action : TableAction}
      {reply : TableReply} :
    Reachable model session history → Permits size history action →
      TableSession.perform size action session = .ok reply session' →
      Reachable model session' ((action, reply) :: history)

/-! ## What is known of a session -/

/-- The objects of a cache that store caches. -/
def TableView.storedIn (view : TableView) : CacheRef → Multiset UInt64
  | .bootstrap => view.addresses
  | .stored _ => 0

/-- The table is as the view has it, and so is the page source.  Some pages were lost in
resets. -/
structure TableView.Backs (model : PageModel size σ) (view : TableView) (lost : Multiset UInt64)
    (session : TableSession σ) : Prop where
  sound : view.Sound size
  describes : view.Describes size session.table session.heap.store session.heap.memory
  source : ∃ source, model.Describes source (view.pages + lost) session.heap.source
    session.heap.memory

/-- The history has the caches and the objects of the view. -/
structure TableHistory.Accounts (size : PageSize) (history : TableHistory) (view : TableView) :
    Prop where
  found : ∀ cls ref, view.find cls = some ref ↔ Yields history cls ref
  objects : ∀ ref, view.Has ref →
    (view.cache ref).objects size = live ref history + view.storedIn ref
  gone : ∀ ref, ¬ view.Has ref → live ref history = []

/-- A request ends with a good answer, and the history agrees with a view again. -/
def TableSession.Refines (model : PageModel size σ) (session : TableSession σ)
    (history : TableHistory) (action : TableAction) : Prop :=
  ∃ reply session' view' lost', TableSession.perform size action session = .ok reply session' ∧
    Answers history action reply ∧ TableView.Backs model view' lost' session' ∧
    TableHistory.Accounts size ((action, reply) :: history) view'

/-- An object that stores no cache is a user's. -/
theorem TableView.Sound.mem_users_of_objects (sound : view.Sound size)
    (regular : view.Regular size) (has : view.Has ref) {object : UInt64}
    (served : object ∈ (view.cache ref).objects size) (unstored : object ∉ view.storedIn ref) :
    ⟨object, (view.cache ref).objectSize⟩ ∈ view.users size := by
  obtain ⟨rest, focus⟩ := exists_focus (sound.nodup_addresses regular) has
  refine (sound.mem_users_iff regular).2 ⟨CacheView.mem_sum.2 ⟨_, focus.mem_caches,
    CacheView.mem_blocks.2 ⟨served, rfl⟩⟩, fun stores => ?_⟩
  obtain ⟨address, used, same⟩ := Multiset.mem_map.1 stores
  cases ref with
  | bootstrap =>
    have named : address = object := congrArg Block.address same
    exact unstored (named ▸ used)
  | stored place =>
    obtain ⟨stored, mem, rfl⟩ := List.mem_map.1 has
    have sizes := sound.bootstrapSize.trans (congrArg Block.size same)
    have own := sound.eq_of_objectSize List.mem_cons_self focus.mem_caches sizes
    obtain ⟨_, _, _, found, _⟩ := exists_split (sound.nodup_addresses regular) mem
    exact sound.bootstrap_ne mem (own.trans found)

omit [PageSource σ] in
theorem TableSession.onHeap_ok {α : Type} {operation : HeapM σ α} {a : α} {heap : Heap σ}
    (ends : operation session.heap = .ok a heap) :
    onHeap operation session = .ok a { session with heap } := by
  unfold onHeap
  rw [ends]

omit [PageSource σ] in
theorem TableHistory.sinceReset_cons (notReset : action ≠ .reset) :
    sinceReset ((action, reply) :: history) = (action, reply) :: sinceReset history := by
  cases action with
  | reset => exact absurd rfl notReset
  | _ => rfl

/-- Requests that neither create nor drop a cache yield what was there. -/
theorem TableHistory.yields_cons (notRegister : action ≠ .register) (notReset : action ≠ .reset)
    (notCreated : ∀ cls ref, (action, reply) ≠ (.findOrCreate cls, .created (.ok ref))) :
    Yields ((action, reply) :: history) cls ref ↔ Yields history cls ref := by
  have other : ¬ (TableAction.register, TableReply.done) = (action, reply) :=
    fun same => notRegister (congrArg Prod.fst same).symm
  have other' := (notCreated cls ref).symm
  simp only [Yields, sinceReset_cons notReset, List.mem_cons, other, other', false_or]

/-- What was created since the last reset stays created until the next. -/
theorem TableHistory.Yields.cons (yields : Yields history cls ref) (notReset : action ≠ .reset) :
    Yields ((action, reply) :: history) cls ref := by
  unfold Yields at yields ⊢
  rw [sinceReset_cons notReset]
  split
  · rename_i bootstrap
    rw [if_pos bootstrap] at yields
    exact ⟨yields.1, .tail _ yields.2⟩
  · rename_i other
    rw [if_neg other] at yields
    exact .tail _ yields

/-- A cache that was created is found by its own class. -/
theorem TableHistory.yields_created {cls' : SizeClass} {ref' : CacheRef} :
    Yields ((.findOrCreate cls, .created (.ok ref)) :: history) cls' ref' ↔
      (cls' = cls ∧ cls ≠ bootstrapClass ∧ ref' = ref) ∨ Yields history cls' ref' := by
  by_cases bootstrap : cls' = bootstrapClass
  · simp only [Yields, sinceReset, if_pos bootstrap, List.mem_cons, Prod.mk.injEq, reduceCtorEq,
      false_and, false_or]
    refine ⟨.inr, fun yields => yields.resolve_left ?_⟩
    rintro ⟨rfl, other, _⟩
    exact other bootstrap
  · simp only [Yields, sinceReset, if_neg bootstrap, List.mem_cons, Prod.mk.injEq,
      TableAction.findOrCreate.injEq, TableReply.created.injEq, Except.ok.injEq]
    exact or_congr_left ⟨fun ⟨same, created⟩ => ⟨same, same ▸ bootstrap, created⟩,
      fun ⟨same, _, created⟩ => ⟨same, created⟩⟩

/-! ## One request -/

namespace TableView.Backs

variable (backs : view.Backs model lost session)

include backs

theorem regular : view.Regular size := by
  obtain ⟨source, known⟩ := backs.source
  exact .of_source known

theorem nodup_addresses : view.addresses.Nodup := backs.sound.nodup_addresses backs.regular

end TableView.Backs

namespace TableHistory.Accounts

variable (accounts : TableHistory.Accounts size history view)

include accounts

theorem has_of_yields (backs : view.Backs model lost session) (yields : Yields history cls ref) :
    view.Has ref ∧ (view.cache ref).objectSize = cls.size :=
  TableView.find_some backs.sound backs.regular ((accounts.found cls ref).2 yields)

/-- One cache of the table changes, and so do the live objects of this cache. -/
theorem setCache {cache : CacheView} (backs : view.Backs model lost session) (has : view.Has ref)
    (sizes : cache.objectSize = (view.cache ref).objectSize)
    (kept : ∀ cls ref, Yields ((action, reply) :: history) cls ref ↔ Yields history cls ref)
    (objects : cache.objects size =
      liveAfter ref (live ref history) (action, reply) + view.storedIn ref)
    (others : ∀ other ≠ ref, liveAfter other (live other history) (action, reply) =
      live other history) :
    TableHistory.Accounts size ((action, reply) :: history) (view.setCache ref cache) := by
  have nodup := backs.nodup_addresses
  obtain ⟨rest, focus⟩ := TableView.exists_focus nodup has
  have storedIn (other : CacheRef) :
      (view.setCache ref cache).storedIn other = view.storedIn other := by
    cases other with
    | bootstrap => rw [TableView.storedIn, TableView.storedIn, focus.addresses]
    | stored address => rfl
  refine ⟨fun cls other => ?_, fun other held => ?_, fun other absent => ?_⟩
  · rw [TableView.find_setCache nodup has sizes, kept]
    exact accounts.found cls other
  · rw [storedIn]
    by_cases same : other = ref
    · subst same
      rw [TableView.cache_setCache nodup has]
      exact objects
    · rw [TableView.cache_setCache_of_ne nodup has same, live, others other same]
      exact accounts.objects other ((TableView.has_setCache nodup has).1 held)
  · rw [TableView.has_setCache nodup has] at absent
    have differ : other ≠ ref := fun same => absent (same ▸ has)
    rw [live, others other differ]
    exact accounts.gone other absent

/-- A cache is created in an object of the bootstrap cache that stored no other. -/
theorem created {storage : UInt64} {bootstrap : CacheView} (registered : view.registered = true)
    (absent : view.find cls = none)
    (allocated : view.bootstrap.Allocated size (.ok storage) bootstrap)
    (backs' : (view.addCache cls storage bootstrap).Backs model lost session') :
    TableHistory.Accounts size ((.findOrCreate cls, .created (.ok (.stored storage))) :: history)
      (view.addCache cls storage bootstrap) := by
  have other : cls ≠ bootstrapClass := by
    rintro rfl
    rw [TableView.find, if_pos rfl, registered, if_pos rfl] at absent
    cases absent
  have fresh : storage ∉ view.addresses := (List.nodup_cons.1 backs'.nodup_addresses).1
  refine ⟨fun cls' ref => ?_, fun ref has => ?_, fun ref gone => ?_⟩
  · rw [TableView.find_addCache other, yields_created, ← accounts.found]
    split
    · rename_i same
      rw [same, absent]
      simp [other, eq_comm]
    · rename_i differ
      simp [differ]
  · cases ref with
    | bootstrap =>
      have before := accounts.objects .bootstrap trivial
      have grown : bootstrap.objects size = storage ::ₘ view.bootstrap.objects size :=
        allocated.objects
      refine grown.trans ((congrArg (storage ::ₘ ·) before).trans ?_)
      exact (Multiset.add_cons _ _ _).symm
    | stored address =>
      by_cases same : address = storage
      · subst same
        have unused : live (.stored address)
            ((.findOrCreate cls, .created (.ok (.stored address))) :: history) = [] :=
          accounts.gone _ fresh
        rw [TableView.cache_addCache_self, unused]
        rfl
      · have held : address ∈ view.addresses := (List.mem_cons.1 has).resolve_left same
        rw [TableView.cache_addCache_of_ne same]
        exact accounts.objects (.stored address) held
  · exact accounts.gone ref fun held => gone (TableView.has_addCache.2 (.inr held))

end TableHistory.Accounts

namespace TableView.Backs

variable (backs : view.Backs model lost session)
  (accounts : TableHistory.Accounts size history view)

include backs accounts

theorem register_refines : TableSession.Refines model session history .register := by
  let view' : TableView := { view with registered := true }
  refine ⟨.done, _, view', lost, rfl, trivial, ⟨?_, ?_, backs.source⟩, ?_⟩
  · exact { backs.sound with registered := fun _ => rfl }
  · exact { backs.describes with registered := rfl }
  · refine ⟨fun cls ref => ?_, accounts.objects, accounts.gone⟩
    have known := accounts.found cls ref
    by_cases bootstrap : cls = bootstrapClass
    · simp [view', TableView.find, Yields, sinceReset, bootstrap, eq_comm]
    · simp only [TableView.find, Yields, if_neg bootstrap] at known
      simp [view', TableView.find, Yields, sinceReset, bootstrap, known]

theorem reset_refines : TableSession.Refines model session history .reset := by
  obtain ⟨source, known⟩ := backs.source
  have sound := backs.sound
  obtain ⟨table, heap, _, source', ends, _, dropped, bootstrap, rfl, freed⟩ :=
    (CacheTable.reset_follows sound backs.describes known).always
      (TableView.reset_always sound backs.regular)
  refine ⟨.done, { heap, table }, { bootstrap },
    ((view.stored.map StoredView.view).map CacheView.pages).sum + lost, ?_, trivial,
    ⟨dropped.sound, dropped.describes, source', dropped.source⟩, fun cls ref => ?_,
    fun ref has => ?_, fun ref absent => ?_⟩
  · rw [TableSession.perform, bind_ok get_ok, bind_ok (TableSession.onHeap_ok ends)]
    rfl
  · simp [TableView.find, Yields, sinceReset]
  · cases ref with
    | bootstrap =>
      have before := accounts.objects .bootstrap trivial
      have split : view.bootstrap.objects size =
          (view.addresses : Multiset UInt64) + bootstrap.objects size := by
        rw [freed.objects, Multiset.coe_eq_coe.2 view.order_perm]
      have both := split.symm.trans before
      rw [TableView.storedIn, add_comm, Multiset.add_left_inj] at both
      exact both.trans (add_zero _).symm
    | stored address => exact absurd has List.not_mem_nil
  · cases ref with
    | bootstrap => exact absurd trivial absent
    | stored address => rfl

theorem find_refines (cls : SizeClass) :
    TableSession.Refines model session history (.find cls) := by
  have answer := backs.describes.find_eq cls
  refine ⟨.found (view.find cls), session, view, lost, ?_, ⟨_, rfl, accounts.found cls⟩, backs,
    fun cls' ref => ?_, accounts.objects, accounts.gone⟩
  · rw [TableSession.perform, bind_ok get_ok,
      bind_ok (TableSession.onHeap_ok (HeapM.check_of_ok answer))]
    rfl
  · exact (accounts.found cls' ref).trans (Iff.symm (yields_cons nofun nofun nofun))

theorem findOrCreate_refines (fits : size.Fits bootstrapClass.size) (cls : SizeClass) :
    TableSession.Refines model session history (.findOrCreate cls) := by
  obtain ⟨source, known⟩ := backs.source
  have sound := backs.sound
  have own : view.bootstrap ∈ view.caches := List.mem_cons_self
  obtain ⟨_, heap, ⟨answer, view'⟩, source', ends, _, ⟨table, rfl, served, _⟩, always⟩ :=
    (CacheTable.provide_follows sound backs.describes known fits).always
      (TableView.findOrCreate_always
        (CacheView.alloc_always (sound.bootstrapSize.symm ▸ fits) (sound.caches _ own)))
  have backs' : view'.Backs model lost { heap, table } :=
    ⟨served.sound, served.describes, source', served.source⟩
  have replied : TableSession.perform size (.findOrCreate cls) session =
      .ok (.created answer) { heap, table } := by
    rw [TableSession.perform, bind_ok get_ok, bind_ok (TableSession.onHeap_ok ends)]
    rfl
  refine ⟨_, _, view', lost, replied, fun ref yields => ?_, backs', ?_⟩
  · have found := (accounts.found cls ref).2 yields
    rcases always with ⟨ref', found', same⟩ | ⟨absent, _⟩
    · rw [found] at found'
      cases found'
      exact congrArg TableReply.created (congrArg Prod.fst same)
    · rw [absent] at found
      cases found
  · rcases always with ⟨ref, found, same⟩ | ⟨absent, ⟨error, same⟩ | ⟨storage, bootstrap,
      registered, same, allocated⟩⟩
    · cases same
      refine ⟨fun cls' ref' => ?_, accounts.objects, accounts.gone⟩
      rw [yields_created, accounts.found, or_iff_right_of_imp]
      rintro ⟨rfl, _, rfl⟩
      exact (accounts.found _ _).1 found
    · cases same
      refine ⟨fun cls' ref' => ?_, accounts.objects, accounts.gone⟩
      exact (accounts.found cls' ref').trans (Iff.symm (yields_cons nofun nofun nofun))
    · cases same
      exact accounts.created registered absent allocated backs'

theorem alloc_refines (permitted : Permits size history (.alloc ref)) :
    TableSession.Refines model session history (.alloc ref) := by
  obtain ⟨cls, yields, fits⟩ := permitted
  obtain ⟨has, sizes⟩ := accounts.has_of_yields backs yields
  rw [← sizes] at fits
  obtain ⟨source, known⟩ := backs.source
  have sound := backs.sound
  obtain ⟨rest, focus⟩ := TableView.exists_focus backs.nodup_addresses has
  obtain ⟨_, heap, ⟨answer, _⟩, source', ends, _, ⟨table, rfl, served, refused⟩, cache, rfl,
    allocated⟩ := (CacheTable.allocFrom_follows sound backs.describes known has fits).always
      (TableView.allocFrom_always
        (CacheView.alloc_always fits (sound.caches _ focus.mem_caches)))
  refine ⟨.object answer, { heap, table }, view.setCache ref cache, lost, ?_, trivial,
    ⟨served.sound, served.describes, source', served.source⟩,
    accounts.setCache backs has allocated.objectSize
      (fun cls ref => yields_cons nofun nofun nofun) ?_ fun other differ => ?_⟩
  · rw [TableSession.perform, bind_ok get_ok, bind_ok (TableSession.onHeap_ok ends)]
    cases answer with
    | error error =>
      obtain rfl := refused error rfl
      rfl
    | ok object => rfl
  · rw [allocated.objects, accounts.objects ref has]
    cases answer with
    | error error => exact Multiset.zero_add _
    | ok object =>
      rw [liveAfter, if_pos rfl, ← Multiset.cons_coe, granted, Multiset.singleton_add,
        Multiset.cons_add]
  · cases answer with
    | error error => rfl
    | ok object => exact if_neg differ.symm

theorem free_refines {object : UInt64} (permitted : Permits size history (.free ref object)) :
    TableSession.Refines model session history (.free ref object) := by
  obtain ⟨⟨cls, yields⟩, mem⟩ := permitted
  obtain ⟨has, _⟩ := accounts.has_of_yields backs yields
  obtain ⟨source, known⟩ := backs.source
  have sound := backs.sound
  have regular := backs.regular
  obtain ⟨rest, focus⟩ := TableView.exists_focus backs.nodup_addresses has
  have objects := accounts.objects ref has
  have served : object ∈ (view.cache ref).objects size := by
    rw [objects]
    exact Multiset.mem_add.2 (.inl (Multiset.mem_coe.2 mem))
  have own := sound.regular_of_mem regular focus.mem_caches
    (CacheView.slabs_ne_nil_of_object served)
  have nodup := own.nodup_objects
  rw [objects, Multiset.nodup_add] at nodup
  have unstored : object ∉ view.storedIn ref :=
    Multiset.disjoint_left.1 nodup.2.2 (Multiset.mem_coe.2 mem)
  have held := sound.mem_users_of_objects regular has served unstored
  obtain ⟨table, heap, _, source', ends, _, freed, cache, rfl, taken⟩ :=
    (CacheTable.freeTo_follows sound backs.describes known has held).always
      (TableView.freeTo_always own (sound.caches _ focus.mem_caches) served)
  refine ⟨.done, { heap, table }, view.setCache ref cache, lost, ?_, trivial,
    ⟨freed.sound, freed.describes, source', freed.source⟩,
    accounts.setCache backs has taken.objectSize
      (fun cls ref => yields_cons nofun nofun nofun) ?_ fun other differ => if_neg differ.symm⟩
  · rw [TableSession.perform, bind_ok get_ok, bind_ok (TableSession.onHeap_ok ends)]
    rfl
  · have both := taken.objects.symm.trans objects
    rw [← Multiset.cons_erase (Multiset.mem_coe.2 mem), Multiset.singleton_add,
      Multiset.cons_add, Multiset.cons_inj_right] at both
    rw [both, liveAfter, if_pos rfl, Multiset.coe_erase]

/-- Every permitted request ends with a good answer. -/
theorem perform_refines (fits : size.Fits bootstrapClass.size)
    (permitted : Permits size history action) :
    TableSession.Refines model session history action := by
  cases action with
  | register => exact backs.register_refines accounts
  | reset => exact backs.reset_refines accounts
  | find cls => exact backs.find_refines accounts cls
  | findOrCreate cls => exact backs.findOrCreate_refines accounts fits cls
  | alloc ref => exact backs.alloc_refines accounts permitted
  | free ref object => exact backs.free_refines accounts permitted

omit accounts

/-- What the page source does by itself leaves the table alone. -/
theorem shift {source : σ} {memory : Memory}
    (shifts : model.Shifts session.heap.source session.heap.memory source memory) :
    view.Backs model lost
      { session with heap := { session.heap with source, memory } } := by
  obtain ⟨_, known⟩ := backs.source
  obtain ⟨known', same⟩ := shifts _ _ known
  refine ⟨backs.sound, ?_, known'⟩
  refine backs.describes.congr backs.sound backs.regular (same.mono ?_) fun _ _ => rfl
  exact (backs.sound.notes_subset_covered backs.regular).trans
    (PageSize.covered_mono (Multiset.le_add_right _ _))

end TableView.Backs

/-! ## Runs -/

/-- Every reachable session is as a view has it, and so is its history. -/
theorem TableSession.Reachable.exists_view (fits : size.Fits bootstrapClass.size)
    (reachable : Reachable model session history) :
    ∃ (view : TableView) (lost : Multiset UInt64), view.Backs model lost session ∧
      TableHistory.Accounts size history view := by
  induction reachable with
  | @start heap source known =>
    have alone : ({} : TableView).Sound size := .alone rfl (.nil size _) false
    refine ⟨{}, 0, ⟨alone, ⟨rfl, .fresh size _ _, nofun, fun b => ?_⟩, source, known⟩,
      fun cls ref => ?_, fun ref has => ?_, fun _ _ => rfl⟩
    · exact Vector.getElem_replicate b.isLt
    · simp [TableView.find, Yields, sinceReset]
    · cases ref with
      | bootstrap => rfl
      | stored address => exact absurd has List.not_mem_nil
  | shift _ shifts ih =>
    obtain ⟨view, lost, backs, accounts⟩ := ih
    exact ⟨view, lost, backs.shift shifts, accounts⟩
  | step _ permitted ends ih =>
    obtain ⟨view, lost, backs, accounts⟩ := ih
    obtain ⟨reply, session', view', lost', ends', _, backs', accounts'⟩ :=
      backs.perform_refines accounts fits permitted
    rw [ends] at ends'
    cases ends'
    exact ⟨view', lost', backs', accounts'⟩

/-- Each request of a run is permitted after those before it and the answers to them. -/
def TableHistory.Legal (size : PageSize) (history : TableHistory) :
    List (TableAction × TableReply) → Prop
  | [] => True
  | entry :: rest => Permits size history entry.1 ∧ Legal size (entry :: history) rest

/-- The answers to a legal run decide its history. -/
theorem TableSession.Reachable.run {run : List (TableAction × TableReply)}
    (reachable : Reachable model session history) (legal : history.Legal size run)
    (ends : (run.map Prod.fst).mapM (perform size) session = .ok (run.map Prod.snd) session') :
    Reachable model session' (run.reverse ++ history) := by
  induction run generalizing session history with
  | nil =>
    cases ends
    exact reachable
  | cons entry rest ih =>
    rw [List.map_cons, List.mapM_cons] at ends
    obtain ⟨reply, session₁, first, ends⟩ := exists_ok_of_bind ends
    obtain ⟨replies, session₂, later, ends⟩ := exists_ok_of_bind ends
    cases ends
    rw [List.reverse_cons, List.append_assoc]
    exact ih (reachable.step legal.1 first) legal.2 later

end

end SlabHeap
