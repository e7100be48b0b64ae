import SlabHeap.Proofs.Reachable

/-!
# Nothing gets stuck

A legal run of actions stops at no fault (`SharedHeap.run_ends`).  So no counter
wraps, nothing is divided by zero, no slab is missing from its list, and the search
for a slab finds an end.

In the end all links can be walked (`SharedHeap.Walkable`).  The bucket of a table
has at most as many caches as the bootstrap cache has live objects, so dropping the
caches of a bucket drops all of them.
-/

namespace SlabHeap

variable {size : PageSize} {count : Nat} {shared : SharedHeap (MeteredPool size) count}
  {ledger : Ledger count}

/-- All chains end, and what is asked of the pool and of the allocators is answered. -/
structure SharedHeap.Walkable (shared : SharedHeap (MeteredPool size) count) : Prop where
  free : ∃ pages, shared.heap.source.pool.FreePages shared.heap.memory pages
  used : ∃ pages, shared.heap.source.pool.used = .ok pages
  buckets : ∀ (i : Fin count) (b : Fin bucketCount), ∃ addresses,
    Chain shared.heap.store.next ((shared.allocators.get i).table.buckets.get b) addresses ∧
      addresses.length ≤ (shared.allocators.get i).table.bootstrap.live.toNat
  space : ∀ i : Fin count, ∃ caches,
    (shared.allocators.get i).table.caches shared.heap.store = .ok caches ∧
      ∀ cache ∈ caches, ∃ slabs, cache.space.Holds shared.heap.memory slabs
  stats : ∀ (i : Fin count) (bytes : UInt64), ∃ stats,
    (shared.allocators.get i).stats shared.heap.store bytes = .ok stats
  allStats : ∀ i : Fin count, ∃ stats,
    (shared.allocators.get i).allStats shared.heap.store = .ok stats

/-- The caches of a bucket are stored in live objects. -/
theorem TableView.Describes.length_bucket_le {view : TableView} {table : CacheTable}
    {store : CacheStore} {memory : Memory} (sound : view.Sound size)
    (h : view.Describes size table store memory) (b : Fin bucketCount) :
    ((view.bucket b).map StoredView.address).length ≤ table.bootstrap.live.toNat := by
  have listed : ((view.bucket b).map StoredView.address).Sublist view.addresses :=
    List.filter_sublist.map _
  have stored := Multiset.card_le_card sound.storages
  rw [Multiset.coe_card, ← h.bootstrap.live] at stored
  exact listed.length_le.trans stored

namespace SharedHeap.Reachable

variable (fits : size.Fits maxObjectSize) (reachable : SharedHeap.Reachable shared ledger)

include fits reachable

theorem walkable : shared.Walkable := by
  obtain ⟨view, h, _⟩ := reachable.exists_view fits
  have tables := fun i => (h.allocators i).table
  obtain ⟨used, counted, _⟩ := h.pool.exists_used
  refine ⟨⟨_, h.pool.stack.chain fits.wide⟩, ⟨used, counted⟩, fun i b => ?_, fun i => ?_,
    fun i bytes => ?_, fun i => ?_⟩
  · exact ⟨_, (tables i).buckets b, (tables i).length_bucket_le (h.sound i).table b⟩
  · refine ⟨_, (tables i).caches_eq, fun cache mem => ?_⟩
    have listed : cache ∈ (shared.allocators.get i).table.allCaches shared.heap.store
        (view.allocators i).table.order := by
      split at mem
      · exact mem
      · exact List.mem_of_mem_tail mem
    obtain ⟨cacheView, _, same⟩ := (tables i).exists_described listed
    exact ⟨_, same.space⟩
  · rw [Allocator.stats]
    split
    · exact ⟨none, rfl⟩
    · rw [(tables i).find_eq]
      exact ⟨_, rfl⟩
  · rw [Allocator.allStats, (tables i).caches_eq]
    exact ⟨_, rfl⟩

end SharedHeap.Reachable

/-- **Nothing gets stuck.**  A legal run ends in answers, for any memory, any number of
allocators, any regions and any refusals of the pool, and in the end all chains can
be walked. -/
theorem SharedHeap.run_ends (fits : size.Fits maxObjectSize) (memory : Memory)
    (actions : List (Action count))
    (legal : ({} : Ledger count).Legal (.fresh size count memory) actions) :
    ∃ replies shared, actions.mapM SharedHeap.perform (.fresh size count memory) =
      .ok replies shared ∧ shared.Walkable := by
  obtain ⟨replies, shared, ends, reachable⟩ := Reachable.run fits (.start memory) legal
  exact ⟨replies, shared, ends, reachable.walkable fits⟩

/-- An object is served and freed, and another is leaked. -/
theorem SharedHeap.run_ends_leak :
    let actions : List (Action 1) := [.request (.init 0), .addMemory 0x10010 0x4000,
      .request (.alloc 0 100), .request (.free 0 0x12050), .request (.alloc 0 1000),
      .refuse (some ⟨0, .invalidParam⟩), .request (.alloc 0 5000), .request (.teardown 0)]
    ∃ replies shared, actions.mapM SharedHeap.perform (.fresh PageSize.default 1 {}) =
      .ok replies shared ∧ shared.Walkable := by
  have fits : PageSize.default.Fits maxObjectSize := ⟨by decide, by decide +kernel⟩
  intro actions
  refine run_ends fits {} actions ⟨trivial, fun _ shared₁ first => ⟨nofun, fun _ shared₂ second =>
    ⟨trivial, fun reply shared₃ third => ⟨fun _ => ?_, fun _ _ _ => ⟨trivial, fun _ _ _ =>
      ⟨trivial, fun _ _ _ => ⟨trivial, fun _ _ _ => ⟨trivial, fun _ _ _ => trivial⟩⟩⟩⟩⟩⟩⟩⟩
  let start : SharedHeap.Op (MeteredPool PageSize.default) 1 Reply := do
    let _ ← SharedHeap.perform (.request (.init 0))
    let _ ← SharedHeap.perform (.addMemory 0x10010 0x4000)
    SharedHeap.perform (.request (.alloc 0 100))
  have whole : start (.fresh PageSize.default 1 {}) = .ok reply shared₃ :=
    (bind_ok first).trans ((bind_ok second).trans third)
  have answer : start.run' (.fresh PageSize.default 1 {}) = some (.object (.ok 0x12050)) := by
    decide +kernel
  rw [run'_ok whole] at answer
  obtain rfl := Option.some.inj answer
  exact ⟨_, List.mem_cons_self, ⟨rfl, rfl⟩, rfl⟩

end SlabHeap
