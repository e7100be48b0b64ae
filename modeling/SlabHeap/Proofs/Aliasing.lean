import SlabHeap.Proofs.Reachable

/-!
# Objects do not alias

The blocks in the ledger of a reachable heap and the objects that caches are stored
in are all blocks of caches on different pages
(`Ledger.Accounts.blocks_eq`).  So each lies where it should, and no two of them
have a byte in common.  `SharedHeap.Reachable.alloc_apart` says so of an object
that is just served.
-/

namespace SlabHeap

variable {size : PageSize} {count : Nat} {view : SharedView count}
  {shared shared' : SharedHeap (MeteredPool size) count} {ledger : Ledger count} {i : Fin count}
  {holding : Holding count} {bytes object : UInt64}

/-! ## All blocks -/

namespace Ledger.Accounts

variable (accounts : ledger.Accounts size view) (h : view.Describes shared)

include accounts h

theorem nodup_blocks : ((ledger.holdings.map Holding.block : Multiset Block) +
    ∑ i, (view.allocators i).table.storages).Nodup := by
  rw [← accounts.blocks_eq h.houses]
  exact CacheView.nodup_blocks (fun _ mem => h.regular_of_mem mem) h.nodup_held

/-- Different blocks have no byte in common. -/
theorem disjoint_run {block other : Block}
    (mem : block ∈ (ledger.holdings.map Holding.block : Multiset Block) +
      ∑ i, (view.allocators i).table.storages)
    (mem' : other ∈ (ledger.holdings.map Holding.block : Multiset Block) +
      ∑ i, (view.allocators i).table.storages) (differ : block ≠ other) :
    Disjoint block.run other.run := by
  rw [← accounts.blocks_eq h.houses] at mem mem'
  exact CacheView.disjoint_blocks (fun _ mem => h.regular_of_mem mem) h.nodup_held mem mem' differ

/-- What callers hold is apart from the objects that caches are stored in. -/
theorem disjoint_storage {block : Block} {address : UInt64}
    (mem : block ∈ ledger.holdings.map Holding.block)
    (used : address ∈ (view.allocators i).table.addresses) :
    Disjoint block.run (Block.mk address bootstrapClass.size).run := by
  have held : block ∈ (ledger.holdings.map Holding.block : Multiset Block) := Multiset.mem_coe.2 mem
  have stored : Block.mk address bootstrapClass.size ∈
      ∑ i, (view.allocators i).table.storages :=
    Multiset.mem_sum.2 ⟨i, Finset.mem_univ i,
      Multiset.mem_map.2 ⟨address, Multiset.mem_coe.2 used, rfl⟩⟩
  refine accounts.disjoint_run h (Multiset.mem_add.2 (.inl held))
    (Multiset.mem_add.2 (.inr stored)) ?_
  rintro rfl
  exact Multiset.disjoint_left.1 (Multiset.nodup_add.1 (accounts.nodup_blocks h)).2.2 held stored

/-- What callers hold is where it should be. -/
theorem placed (mem : holding ∈ ledger.holdings) :
    holding.block.Placed size (ledger.regions.flatMap (Extent.pages size)) ∧
      size.pageOf holding.block.address ∈ view.held := by
  obtain ⟨cache, held, own⟩ := accounts.exists_cache mem
  have placed := (h.regular_of_mem held (CacheView.slabs_ne_nil own)).placed
    (h.houses.rounded_of_mem held) own
  have le := CacheView.pages_le_sum held
  have added : cache.pages ≤ ledger.regions.flatMap (Extent.pages size) := by
    rw [← accounts.regions, h.pool.split]
    exact le.trans (Multiset.le_add_left _ _)
  exact ⟨placed.mono added, Multiset.mem_of_le le placed.held⟩

end Ledger.Accounts

/-! ## Reachable heaps -/

/-- A block is apart from the free pages, from what callers hold and from what caches
are stored in. -/
structure SharedHeap.Isolates (shared : SharedHeap (MeteredPool size) count)
    (ledger : Ledger count) (block : Block) : Prop where
  placed : block.Placed size (ledger.regions.flatMap (Extent.pages size))
  taken : ∃ free, shared.heap.source.pool.FreePages shared.heap.memory free ∧
    size.pageOf block.address ∉ free
  holdings : ∀ holding ∈ ledger.holdings, Disjoint block.run holding.block.run
  storages : ∀ j : Fin count,
    ∃ storages, (shared.allocators.get j).table.storages shared.heap.store = .ok storages ∧
      ∀ storage ∈ storages, Disjoint block.run (Block.mk storage bootstrapClass.size).run

namespace SharedHeap.Reachable

variable (fits : size.Fits maxObjectSize) (reachable : SharedHeap.Reachable shared ledger)

include fits reachable

/-- No two objects have a byte in common. -/
theorem pairwise_disjoint :
    ledger.holdings.Pairwise fun a b => Disjoint a.block.run b.block.run := by
  obtain ⟨view, h, accounts⟩ := reachable.exists_view fits
  have nodup := Multiset.coe_nodup.1 (Multiset.nodup_add.1 (accounts.nodup_blocks h)).1
  have apart : (ledger.holdings.map Holding.block).Pairwise fun a b => Disjoint a.run b.run := by
    refine nodup.pairwise_of_forall_ne fun a mem b mem' differ => ?_
    exact accounts.disjoint_run h (Multiset.mem_add.2 (.inl (Multiset.mem_coe.2 mem)))
      (Multiset.mem_add.2 (.inl (Multiset.mem_coe.2 mem'))) differ
  rw [List.pairwise_map] at apart
  exact apart

/-- No object has a byte in common with one that a cache is stored in. -/
theorem disjoint_storages (mem : holding ∈ ledger.holdings) (j : Fin count) :
    ∃ storages, (shared.allocators.get j).table.storages shared.heap.store = .ok storages ∧
      ∀ storage ∈ storages,
        Disjoint holding.block.run (Block.mk storage bootstrapClass.size).run := by
  obtain ⟨view, h, accounts⟩ := reachable.exists_view fits
  refine ⟨_, (h.allocators j).table.storages_eq, fun storage used => ?_⟩
  exact accounts.disjoint_storage h (List.mem_map_of_mem mem)
    ((view.allocators j).table.order_perm.mem_iff.1 used)

/-- The page of an object is not free. -/
theorem notMem_free (mem : holding ∈ ledger.holdings) :
    ∃ free, shared.heap.source.pool.FreePages shared.heap.memory free ∧
      size.pageOf holding.block.address ∉ free := by
  obtain ⟨view, h, accounts⟩ := reachable.exists_view fits
  refine ⟨view.pool.free, h.pool.stack.chain fits.wide, fun unused => ?_⟩
  exact Multiset.disjoint_left.1 h.pool.apart (Multiset.mem_coe.2 unused)
    (accounts.placed h mem).2

/-- **Objects do not alias.**  What `alloc` answers with lies where it should, and it
has no byte in common with anything that was served before and not freed. -/
theorem alloc_apart
    (answered : SharedHeap.perform (.request (.alloc i bytes)) shared =
      .ok (.object (.ok object)) shared') :
    ∃ cls, SizeClass.ofRequest? bytes = some cls ∧
      shared'.Isolates ledger ⟨object, cls.size⟩ := by
  have permitted : ledger.Permits (.request (.alloc i bytes)) := trivial
  obtain ⟨view, h, accounts⟩ := reachable.exists_view fits
  obtain ⟨_, ends, _⟩ := h.perform_refines fits accounts permitted
  rw [answered] at ends
  obtain ⟨cls, request⟩ := SharedView.exists_class (EStateM.Result.ok.inj ends).1.symm
  have sizes : servedSize bytes = cls.size := by rw [servedSize, request]
  have next := reachable.step permitted answered
  have held : (⟨i, ⟨object, cls.size⟩, false⟩ : Holding count) ∈
      (ledger.note (.request (.alloc i bytes)) (.object (.ok object))).holdings := by
    rw [← sizes]
    exact List.mem_cons_self
  have apart := (List.pairwise_cons.1 (next.pairwise_disjoint fits)).1
  rw [sizes] at apart
  obtain ⟨view', h', accounts'⟩ := next.exists_view fits
  have placed := (accounts'.placed h' held).1
  have taken := next.notMem_free fits held
  have storages := next.disjoint_storages fits held
  exact ⟨cls, request, placed, taken, apart, storages⟩

end SharedHeap.Reachable

/-- The second object of an allocator on a region of three pages. -/
theorem SharedHeap.Reachable.alloc_apart_second :
    ∃ (shared shared' : SharedHeap (MeteredPool PageSize.default) 1) (ledger : Ledger 1),
      Reachable shared ledger ∧ ledger.holdings = [⟨0, ⟨0x12050, 112⟩, false⟩] ∧
      SharedHeap.perform (.request (.alloc 0 100)) shared = .ok (.object (.ok 0x120c0)) shared' ∧
      ∃ cls, SizeClass.ofRequest? 100 = some cls ∧ shared'.Isolates ledger ⟨0x120c0, cls.size⟩ := by
  have fits : PageSize.default.Fits maxObjectSize := ⟨by decide, by decide +kernel⟩
  let actions : List (Action 1) :=
    [.request (.init 0), .addMemory 0x10010 0x4000, .request (.alloc 0 100)]
  have legal : ({} : Ledger 1).Legal (.fresh PageSize.default 1 {}) actions :=
    ⟨trivial, fun _ _ _ => ⟨nofun, fun _ _ _ => ⟨trivial, fun _ _ _ => trivial⟩⟩⟩
  obtain ⟨replies, shared, ends, reachable⟩ := Reachable.run fits (.start {}) legal
  obtain ⟨reply, shared', ends'⟩ := reachable.exists_reply fits
    (show Ledger.Permits _ (.request (.alloc 0 100)) from trivial)
  let all : SharedHeap.Op (MeteredPool PageSize.default) 1 (List Reply × Reply) := do
    let replies ← actions.mapM SharedHeap.perform
    let reply ← SharedHeap.perform (.request (.alloc 0 100))
    return (replies, reply)
  have whole : all (.fresh PageSize.default 1 {}) = .ok (replies, reply) shared' :=
    (bind_ok ends).trans (bind_ok ends')
  have answers : all.run' (.fresh PageSize.default 1 {}) =
      some ([.done, .region (.ok ()), .object (.ok 0x12050)], .object (.ok 0x120c0)) := by
    decide +kernel
  rw [run'_ok whole] at answers
  obtain ⟨rfl, rfl⟩ := Prod.mk.inj (Option.some.inj answers)
  exact ⟨shared, shared', _, reachable, by decide +kernel, ends',
    reachable.alloc_apart fits ends'⟩

end SlabHeap
