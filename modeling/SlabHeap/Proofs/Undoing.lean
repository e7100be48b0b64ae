import SlabHeap.Proofs.Noninterference
import SlabHeap.Proofs.WriteSets

/-!
# Freeing undoes serving

An object that is served from a cache and freed at once leaves no trace: all caches, their lists,
the headers and the free slots of their slabs, and the pool with its stack are as they were, and
so is every byte outside of the free pages (`SharedHeap.Restored`).

The same holds if objects are served and freed in between, the last one first.  Such a sequence
is a tree (`Nest`), and the proof is an induction on it: what is between is undone before the
object is freed (`SharedView.Restores`).  What a nest takes from the pool it gives back.
-/

namespace SlabHeap

variable {size : PageSize} {count : Nat}

/-! ## What is restored -/

/-- All that allocators and pool are known by, and all bytes outside of the free pages, are as
they were. -/
structure SharedHeap.Restored (shared shared' : SharedHeap (MeteredPool size) count)
    (ledger : Ledger count) : Prop where
  allocators : shared'.allocators = shared.allocators
  stats : ∀ i, (shared'.allocators.get i).stats shared'.heap.store =
    (shared.allocators.get i).stats shared.heap.store
  allStats : ∀ i, (shared'.allocators.get i).allStats shared'.heap.store =
    (shared.allocators.get i).allStats shared.heap.store
  listed : ∀ i storages,
    (shared.allocators.get i).table.storages shared.heap.store = .ok storages →
      ∀ cache ∈ (shared.allocators.get i).table.allCaches shared.heap.store storages,
        ∀ slabs, cache.space.Holds shared.heap.memory slabs →
          cache.space.Holds shared'.heap.memory slabs
  held : ∀ page, shared'.HoldsPage ledger page ↔ shared.HoldsPage ledger page
  headers : ∀ page, shared.HoldsPage ledger page →
    (Slab.mk page).header shared'.heap.memory = (Slab.mk page).header shared.heap.memory
  slots : ∀ page, shared.HoldsPage ledger page → ∀ free,
    (Slab.mk page).FreeSlots shared.heap.memory free →
      (Slab.mk page).FreeSlots shared'.heap.memory free
  pool : shared'.heap.source.pool = shared.heap.source.pool
  free : ∀ pages, shared.heap.source.pool.FreePages shared.heap.memory pages →
    shared'.heap.source.pool.FreePages shared'.heap.memory pages
  bytes : ∀ pages, shared.heap.source.pool.FreePages shared.heap.memory pages →
    ∀ address, size.pageOf address ∉ pages →
      shared'.heap.memory.byte address = shared.heap.memory.byte address

/-- The header is in the bytes of the fields. -/
theorem Slab.header_congr {slab : Slab} {memory memory' : Memory}
    (same : Set.EqOn memory'.byte memory.byte (Memory.run slab.base Slab.fieldBytes)) :
    slab.header memory' = slab.header memory := by
  have word (field : Field) (wide : field.width = 8) :
      memory'.word (slab.fieldAddress field) = memory.word (slab.fieldAddress field) := by
    have inside := slab.field_subset field
    rw [wide] at inside
    exact Memory.word_congr (same.mono inside)
  have byte (field : Field) (single : field.width = 1) :
      memory'.byte (slab.fieldAddress field) = memory.byte (slab.fieldAddress field) := by
    have inside := slab.field_subset field
    rw [single] at inside
    exact same (inside (Memory.self_mem_run Nat.one_pos))
  simp only [header, next, objectSize, objectBase, head, live, word .next rfl,
    word .objectSize rfl, word .objectBase rfl, byte .head rfl, byte .live rfl]

/-- A later heap is described by the view that described an earlier one, but for the log of the
pool.  There stand pages that were given back meanwhile, all those that were taken. -/
structure SharedView.Restores (view : SharedView count)
    (shared shared' : SharedHeap (MeteredPool size) count) (pool : PoolView)
    (taken : List UInt64) : Prop where
  describes : ({ view with pool } : SharedView count).Describes shared'
  free : pool.free = view.pool.free
  added : pool.added = view.pool.added
  released : ∃ back, pool.released = back ++ view.pool.released ∧ back.Perm taken
  bytes : Set.EqOn shared'.heap.memory.byte shared.heap.memory.byte
    (size.covered view.pool.free)ᶜ

variable {view : SharedView count} {shared shared' shared'' : SharedHeap (MeteredPool size) count}
  {ledger : Ledger count} {pool pool' : PoolView} {taken later : List UInt64} {i : Fin count}
  {ref : CacheRef} {bytes object : UInt64}

/-- What is known of the allocators does not depend on the pool. -/
theorem SharedView.Describes.houses_of_pool
    (h : ({ view with pool } : SharedView count).Describes shared) : view.Houses size shared :=
  have houses := h.houses
  ⟨houses.nodup, houses.aligned, houses.nonzero, houses.allocators, houses.sound, houses.lost,
    houses.rounded⟩

namespace SharedView.Restores

theorem refl (h : view.Describes shared) : view.Restores shared shared view.pool [] :=
  ⟨h, rfl, rfl, ⟨[], rfl, .refl _⟩, fun _ _ => rfl⟩

theorem trans (first : view.Restores shared shared' pool taken)
    (second : ({ view with pool } : SharedView count).Restores shared' shared'' pool' later) :
    view.Restores shared shared'' pool' (taken ++ later) := by
  obtain ⟨back, released, perm⟩ := first.released
  obtain ⟨back', released', perm'⟩ := second.released
  refine ⟨second.describes, second.free.trans first.free, second.added.trans first.added,
    ⟨back' ++ back, ?_, ?_⟩, ?_⟩
  · rw [released', released, List.append_assoc]
  · exact (perm'.append perm).trans List.perm_append_comm
  · have same := second.bytes
    rw [show ({ view with pool } : SharedView count).pool.free = view.pool.free from first.free]
      at same
    exact same.trans first.bytes

/-- A ledger that agrees with the view agrees with it again. -/
theorem accounts (restores : view.Restores shared shared' pool taken)
    (accounts : ledger.Accounts size view) :
    ledger.Accounts size ({ view with pool } : SharedView count) :=
  ⟨accounts.opened, accounts.users, accounts.leaked, restores.added.trans accounts.regions⟩

/-- What is restored can be seen. -/
theorem restored (restores : view.Restores shared shared' pool taken) (h : view.Describes shared)
    (accounts : ledger.Accounts size view) (wide : 8 ≤ size.length) :
    shared.Restored shared' ledger := by
  have houses := restores.describes.houses_of_pool
  have accounts' := restores.accounts accounts
  have chain := h.pool.stack.chain wide
  have chain' := restores.describes.pool.stack.chain wide
  have memory {page address : UInt64} (held : shared.HoldsPage ledger page)
      (inPage : size.pageOf address = page) :
      shared'.heap.memory.byte address = shared.heap.memory.byte address :=
    restores.bytes fun free => (accounts.apart_of_holdsPage h held).1
      (inPage ▸ Multiset.mem_coe.1 free)
  have fields {page : UInt64} (held : shared.HoldsPage ledger page) : Set.EqOn
      shared'.heap.memory.byte shared.heap.memory.byte (Memory.run page Slab.fieldBytes) := by
    obtain ⟨i, cache, mem, listed⟩ := (accounts.holdsPage_iff h).1 held
    obtain ⟨slab, kept, rfl⟩ := List.mem_map.1 (Multiset.mem_coe.1 listed)
    have regular := (h.sound i).table.regular_of_mem (h.regular i) mem (List.ne_nil_of_mem kept)
    intro address inside
    exact memory held (regular.fits.pageOf_of_mem_notes (regular.aligned _ listed)
      (size.fields_subset_notes _ _ inside))
  exact {
    allocators := h.houses.allocators_eq houses
    stats := fun i =>
      (h.allocators i).stats_eq (houses.allocators i) (h.sound i).table (h.regular i)
    allStats := fun i => (h.allocators i).allStats_eq (houses.allocators i)
    listed := fun i storages stored cache mem slabs holds => by
      rw [(h.allocators i).table.storages_eq] at stored
      obtain rfl := Except.ok.inj stored
      obtain ⟨cacheView, own, described⟩ := (h.allocators i).table.exists_described mem
      obtain rfl := holds.1.unique described.space.1
      refine holds.congr fun slab listed => ?_
      obtain ⟨slab, room, rfl⟩ := List.mem_map.1 listed
      have held := (accounts.holdsPage_iff h).2
        ⟨i, cacheView, own, CacheView.mem_pages (List.mem_append_left _ room)⟩
      exact Slab.next_congr ((fields held).mono (Memory.run_mono (by decide)))
    held := fun page =>
      (accounts'.holdsPage_iff restores.describes).trans (accounts.holdsPage_iff h).symm
    headers := fun page held => Slab.header_congr (fields held)
    slots := fun page held free slots =>
      ((accounts'.holdsPage_and_freeSlots_iff restores.describes).2
        ((accounts.holdsPage_and_freeSlots_iff h).1 ⟨held, slots⟩)).2
    pool := h.pool.pool_eq restores.describes.pool restores.free restores.added wide
    free := fun pages free => by
      obtain rfl := free.unique chain
      rw [← restores.free]
      exact chain'
    bytes := fun pages free address outside => by
      obtain rfl := free.unique chain
      exact restores.bytes fun inside => outside (Multiset.mem_coe.1 inside) }

end SharedView.Restores

/-! ## One object -/

/-- The page that an allocation took from the pool, if it took one: the top of the stack, if a
page less is free. -/
def SharedHeap.pagesTaken (shared shared' : SharedHeap (MeteredPool size) count) : List UInt64 :=
  if shared'.heap.source.pool.free = shared.heap.source.pool.free then []
  else shared.heap.source.pool.top.toList

theorem SharedView.Describes.pagesTaken_eq {view' : SharedView count} {pages : List UInt64}
    (h : view.Describes shared) (h' : view'.Describes shared')
    (split : view.pool.free = pages ++ view'.pool.free) (few : pages.length ≤ 1)
    (wide : 8 ≤ size.length) : shared.pagesTaken shared' = pages := by
  have free := h.pool.stack.count
  have free' := h'.pool.stack.count
  have top := (h.pool.stack.chain wide).head?_eq
  rw [split] at free top
  match pages with
  | [] => exact if_pos (UInt64.toNat_inj.1 (free'.trans free.symm))
  | [page] =>
    have differ : shared'.heap.source.pool.free ≠ shared.heap.source.pool.free := by
      intro same
      rw [same, free] at free'
      simp at free'
    rw [SharedHeap.pagesTaken, if_neg differ, top]
    rfl

/-- What is known of a cache decides what it relies on, so all bytes outside of the free pages are
as they were. -/
theorem SharedView.Describes.eqOn_of_known (h : view.Describes shared)
    (h' : ({ view with pool } : SharedView count).Describes shared')
    (finds : view.Finds i bytes ref) (same : Set.EqOn shared'.heap.memory.byte
      shared.heap.memory.byte ((view.cache i ref).relied ∪ size.covered view.pool.free)ᶜ) :
    Set.EqOn shared'.heap.memory.byte shared.heap.memory.byte (size.covered view.pool.free)ᶜ := by
  have held := finds.mem_caches h.sound h.regular
  have houses := h'.houses_of_pool
  intro address outside
  by_cases relied : address ∈ (view.cache i ref).relied
  · exact h.houses.eqOn_relied houses held relied
  · exact same fun inside => inside.elim relied outside

/-- **Freeing the object that was served last undoes serving**, if what happened in between is
undone. -/
theorem SharedView.Describes.free_restores {cache : CacheView} {pages : List UInt64}
    (h : view.Describes shared) (fits : size.Fits maxObjectSize) (finds : view.Finds i bytes ref)
    (serves : SharedHeap.perform (.request (.alloc i bytes)) shared =
      .ok (.object (.ok object)) shared')
    (run : ((view.cache i ref).alloc size).run view.pool = ((.ok object, cache), pool))
    (accounts' : (ledger.note (.request (.alloc i bytes)) (.object (.ok object))).Accounts size
      (view.setCache i ref pool cache))
    (reverts : (cache.free size object).Reverts (view.cache i ref) view.pool pool pages)
    (restores : (view.setCache i ref pool cache).Restores shared' shared'' pool' taken) :
    ∃ final last, SharedHeap.perform (.request (.free i object)) shared'' = .ok .done final ∧
      view.Restores shared final last (pages ++ taken) := by
  have sound := h.sound_cache finds
  have regular := h.regular_cache finds fits
  have allocated := (CacheView.alloc_always regular.fits sound).run view.pool
  rw [run] at allocated
  -- the same cache takes the object back
  have middle : (view.setCache i ref pool' cache).Describes shared'' := restores.describes
  have finds' : (view.setCache i ref pool' cache).Finds i bytes ref :=
    finds.setCache h.sound h.regular allocated.objectSize finds
  have found : (view.setCache i ref pool' cache).cache i ref = cache :=
    finds.cache_setCache h.sound h.regular
  have own : object ∈ ((view.setCache i ref pool' cache).cache i ref).objects size := by
    rw [found, allocated.objects]
    exact Multiset.mem_add.2 (.inl (Multiset.mem_singleton_self object))
  have permitted : (ledger.note (.request (.alloc i bytes)) (.object (.ok object))).Permits
      (.request (.free i object)) := fun _ => ⟨_, List.mem_cons_self, ⟨rfl, rfl⟩, rfl⟩
  obtain ⟨last, reverted, free, added, released⟩ := reverts.back pool' restores.free restores.added
  rw [← found] at reverted
  obtain ⟨final, frees, described, _⟩ := middle.free_refines_found finds' fits
    (restores.accounts accounts') own permitted reverted
  rw [SharedView.setCache_setCache, finds.setCache_cache h.sound h.regular] at described
  refine ⟨final, last, frees, described, free, added, ?_, ?_⟩
  · obtain ⟨back, before, perm⟩ := restores.released
    refine ⟨pages ++ back, ?_, perm.append_left pages⟩
    rw [released, before, List.append_assoc]
    exact congrArg (fun below => pages ++ (back ++ below)) reverts.released
  · -- serving, what happened in between, and freeing write to the slab and to free pages
    have below : size.covered pool.free ⊆
        (view.cache i ref).relied ∪ size.covered view.pool.free := by
      refine fun address inside => .inr ?_
      rw [reverts.taken]
      exact Multiset.mem_coe.2 (List.mem_append_right pages (Multiset.mem_coe.1 inside))
    obtain ⟨_, _, _, known, freed, memory⟩ := middle.exists_cache_of_free finds' own frees
    rw [found] at known
    have opened := h.regular_openSlab finds fits
    have first := h.eqOn_of_alloc finds fits serves
    have second := restores.bytes.mono (Set.compl_subset_compl.2 below)
    have third := known.eqOn_of_free_served sound regular opened run freed
    rw [memory] at third
    exact h.eqOn_of_known described finds (third.trans (second.trans first))

/-- An object is served from a cache that is found.  Every cache is found after that, and freeing
the object undoes it. -/
theorem SharedView.Describes.exists_served (h : view.Describes shared)
    (accounts : ledger.Accounts size view) (fits : size.Fits maxObjectSize)
    (finds : view.Finds i bytes ref)
    (serves : SharedHeap.perform (.request (.alloc i bytes)) shared =
      .ok (.object (.ok object)) shared') :
    ∃ served : SharedView count, served.Describes shared' ∧
      (ledger.note (.request (.alloc i bytes)) (.object (.ok object))).Accounts size served ∧
      (∀ j bytes' ref', view.Finds j bytes' ref' → served.Finds j bytes' ref') ∧
      ∀ shared'' pool taken, served.Restores shared' shared'' pool taken →
        ∃ final last, SharedHeap.perform (.request (.free i object)) shared'' = .ok .done final ∧
          view.Restores shared final last (shared.pagesTaken shared' ++ taken) := by
  have sound := h.sound_cache finds
  have regular := h.regular_cache finds fits
  have opened := h.regular_openSlab finds fits
  rcases run : ((view.cache i ref).alloc size).run view.pool with ⟨⟨answer, cache⟩, pool⟩
  obtain ⟨_, ends, described, accounts'⟩ := h.alloc_refines_found finds fits accounts run
  obtain ⟨same, rfl⟩ := EStateM.Result.ok.inj (ends.symm.trans serves)
  obtain rfl := Reply.object.inj same
  have allocated := (CacheView.alloc_always regular.fits sound).run view.pool
  rw [run] at allocated
  obtain ⟨pages, few, reverts⟩ := CacheView.free_reverts sound regular opened run
  rw [h.pagesTaken_eq described reverts.taken few fits.wide]
  exact ⟨_, described, accounts',
    fun j bytes' ref' => finds.setCache h.sound h.regular allocated.objectSize,
    fun shared'' later taken => h.free_restores fits finds serves run accounts' reverts⟩

/-! ## Nests of objects -/

/-- Objects that are served and freed, the last one first. -/
inductive Nest (count : Nat) where
  /-- Nothing is served. -/
  | done
  /-- An object is served, and freed when all that is served inside is freed. -/
  | around (i : Fin count) (bytes : UInt64) (inner rest : Nest count)

namespace Nest

/-- The objects that are asked for. -/
def requests : Nest count → List (Fin count × UInt64)
  | done => []
  | around i bytes inner rest => (i, bytes) :: (inner.requests ++ rest.requests)

/-- Serve and free all objects.  The result are the pages that were taken from the pool, or
nothing if an object was refused. -/
def run : Nest count → SharedHeap.Op (MeteredPool size) count (Option (List UInt64))
  | done => return some []
  | around i bytes inner rest => do
    let before ← get
    match ← SharedHeap.perform (.request (.alloc i bytes)) with
    | .object (.ok object) =>
      let between ← get
      match ← inner.run with
      | none => return none
      | some taken =>
        let _ ← SharedHeap.perform (.request (.free i object))
        return (← rest.run).map (before.pagesTaken between ++ taken ++ ·)
    | _ => return none

/-- A nest is undone when it ends. -/
theorem restores (fits : size.Fits maxObjectSize) (nest : Nest count) (h : view.Describes shared)
    (accounts : ledger.Accounts size view)
    (finds : ∀ request ∈ nest.requests, ∃ ref, view.Finds request.1 request.2 ref) :
    ∃ outcome shared', nest.run shared = .ok outcome shared' ∧
      ∀ taken, outcome = some taken → ∃ pool, view.Restores shared shared' pool taken := by
  induction nest generalizing view shared ledger with
  | done =>
    refine ⟨some [], shared, rfl, fun taken same => ?_⟩
    cases same
    exact ⟨view.pool, .refl h⟩
  | around i bytes inner rest ihInner ihRest =>
    obtain ⟨ref, own⟩ : ∃ ref, view.Finds i bytes ref := finds (i, bytes) List.mem_cons_self
    obtain ⟨answer, between, serves⟩ : ∃ answer between,
        SharedHeap.perform (.request (.alloc i bytes)) shared =
          .ok (.object answer) between := by
      have permitted : ledger.Permits (.request (.alloc i bytes)) := trivial
      obtain ⟨between, serves, _⟩ := h.perform_refines fits accounts permitted
      exact ⟨_, between, serves⟩
    cases answer with
    | error error =>
      refine ⟨none, between, ?_, nofun⟩
      rw [run, bind_ok get_ok, bind_ok serves]
      rfl
    | ok object =>
      obtain ⟨served, described, accounts', kept, undone⟩ :=
        h.exists_served accounts fits own serves
      obtain ⟨outcome, later, ends, restored⟩ := ihInner described accounts'
        fun request mem => (finds request (.tail _ (List.mem_append_left _ mem))).imp
          fun ref => kept _ _ ref
      cases outcome with
      | none =>
        refine ⟨none, later, ?_, nofun⟩
        rw [run, bind_ok get_ok, bind_ok serves]
        dsimp only
        rw [bind_ok get_ok, bind_ok ends]
        rfl
      | some taken =>
        obtain ⟨pool, inside⟩ := restored taken rfl
        obtain ⟨final, last, frees, restores⟩ := undone later pool taken inside
        obtain ⟨outcome, shared', ends', restored'⟩ := ihRest restores.describes
          (restores.accounts accounts)
          fun request mem => (finds request (.tail _ (List.mem_append_right _ mem))).imp
            fun ref finds => ⟨finds.opened, finds.found⟩
        refine ⟨outcome.map (shared.pagesTaken between ++ taken ++ ·), shared', ?_,
          fun all same => ?_⟩
        · rw [run, bind_ok get_ok, bind_ok serves]
          dsimp only
          rw [bind_ok get_ok, bind_ok ends]
          dsimp only
          rw [bind_ok frees, bind_ok ends']
          rfl
        · obtain ⟨more, rfl, rfl⟩ := Option.map_eq_some_iff.1 same
          obtain ⟨pool', restores'⟩ := restored' more rfl
          exact ⟨pool', restores.trans restores'⟩

end Nest

/-! ## What is seen of it -/

namespace SharedHeap

/-- The class of a size has a cache. -/
def Registers (shared : SharedHeap (MeteredPool size) count) (i : Fin count) (bytes : UInt64) :
    Prop := ∃ stats, (shared.allocators.get i).stats shared.heap.store bytes = .ok (some stats)

/-- **Freeing undoes serving.**  Take a reachable heap and sizes whose classes have a cache.  If
an object is served and freed at once, all is as it was before.  The same holds for each nest of
objects, unless one of them is refused.  The pages that a nest releases are those that it took. -/
theorem Reachable.restored_of_nest (fits : size.Fits maxObjectSize)
    (reachable : Reachable shared ledger) :
    (∀ i bytes object between, shared.Registers i bytes →
      SharedHeap.perform (.request (.alloc i bytes)) shared =
        .ok (.object (.ok object)) between →
      ∃ after, SharedHeap.perform (.request (.free i object)) between = .ok .done after ∧
        shared.Restored after ledger) ∧
    ∀ nest : Nest count, (∀ request ∈ nest.requests, shared.Registers request.1 request.2) →
      ∃ outcome after, nest.run shared = .ok outcome after ∧ ∀ taken, outcome = some taken →
        shared.Restored after ledger ∧
          ∃ back, after.heap.source.released = back ++ shared.heap.source.released ∧
            back.Perm taken := by
  obtain ⟨view, h, accounts⟩ := reachable.exists_view fits
  constructor
  · rintro i bytes object between ⟨stats, told⟩ serves
    obtain ⟨ref, finds⟩ := h.exists_finds_of_stats told
    obtain ⟨served, described, _, _, undone⟩ := h.exists_served accounts fits finds serves
    obtain ⟨after, last, frees, restores⟩ := undone between served.pool [] (.refl described)
    exact ⟨after, frees, restores.restored h accounts fits.wide⟩
  · intro nest registers
    obtain ⟨outcome, after, ends, restored⟩ := nest.restores fits h accounts
      fun request mem => (registers request mem).elim fun _ told => h.exists_finds_of_stats told
    refine ⟨outcome, after, ends, fun taken same => ?_⟩
    obtain ⟨pool, restores⟩ := restored taken same
    obtain ⟨back, released, perm⟩ := restores.released
    refine ⟨restores.restored h accounts fits.wide, back, ?_, perm⟩
    rw [restores.describes.pool.released, h.pool.released]
    exact released

/-- Of three nested objects the first one fills up a slab, and the last one takes a page. -/
theorem Reachable.restored_of_nest_page :
    let nest : Nest 1 := .around 0 2000 (.around 0 100 .done (.around 0 2000 .done .done)) .done
    ∃ (shared after : SharedHeap (MeteredPool PageSize.default) 1) (ledger : Ledger 1),
      Reachable shared ledger ∧ ledger.holdings ≠ [] ∧
      nest.run shared = .ok (some [0x14000]) after ∧ shared.Restored after ledger ∧
      after.heap.source.released = [0x14000] := by
  intro nest
  have fits : PageSize.default.Fits maxObjectSize := ⟨by decide, by decide +kernel⟩
  let actions : List (Action 1) := [.request (.init 0), .addMemory 0x10010 0x8000,
    .request (.alloc 0 100), .request (.alloc 0 2000)]
  have legal : ({} : Ledger 1).Legal (.fresh PageSize.default 1 {}) actions :=
    ⟨trivial, fun _ _ _ => ⟨nofun, fun _ _ _ => ⟨trivial, fun _ _ _ => ⟨trivial, fun _ _ _ =>
      trivial⟩⟩⟩⟩
  let replies : List Reply :=
    [.done, .region (.ok ()), .object (.ok 0x12050), .object (.ok 0x13030)]
  let known (shared : SharedHeap (MeteredPool PageSize.default) 1) (bytes : UInt64) : Bool :=
    ((shared.allocators.get 0).stats shared.heap.store bytes).toOption.join.isSome
  have registers {shared : SharedHeap (MeteredPool PageSize.default) 1} {bytes : UInt64}
      (told : known shared bytes = true) : shared.Registers 0 bytes := by
    simp only [known] at told
    rcases same : (shared.allocators.get 0).stats shared.heap.store bytes with _ | _ | stats
    · rw [same] at told
      cases told
    · rw [same] at told
      cases told
    · exact ⟨stats, same⟩
  obtain ⟨others, shared, ends, reachable, tested⟩ := Reachable.run_of_test fits (.start {}) legal
    (fun others shared => others = replies ∧ shared.heap.source.released = [] ∧
      nest.run.run' shared = some (some [0x14000]) ∧ known shared 100 ∧ known shared 2000)
    (by decide +kernel)
  obtain ⟨rfl, unreleased, run, small, large⟩ := of_decide_eq_true tested
  obtain ⟨outcome, after, ran, restored⟩ := (reachable.restored_of_nest fits).2 nest (by
    intro request mem
    simp only [nest, Nest.requests, List.nil_append, List.append_nil, List.mem_cons,
      List.not_mem_nil, or_false] at mem
    rcases mem with rfl | rfl | rfl
    · exact registers large
    · exact registers small
    · exact registers large)
  rw [run'_ok ran] at run
  cases run
  obtain ⟨same, back, released, perm⟩ := restored [0x14000] rfl
  rw [unreleased, List.append_nil, List.perm_singleton.1 perm] at released
  exact ⟨shared, after, _, reachable, by decide +kernel, ran, same, released⟩

end SharedHeap

end SlabHeap
