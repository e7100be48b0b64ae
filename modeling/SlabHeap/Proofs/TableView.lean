import Mathlib.Algebra.BigOperators.Fin
import Mathlib.Data.List.Find
import SlabHeap.CacheTable
import SlabHeap.Proofs.Blocks

/-!
# Tables as lists of caches

A `TableView` is the abstract table: the bootstrap cache and the caches created
since the last reset, the newest first.  The chain of a bucket is the part of that
list whose sizes belong to the bucket, in the same order, so the buckets need no
place of their own here.

The operations are plans over the operations of caches.  A cache is found by its
class when an object is served, and by the page of the object when one is freed.
Most of what they do is to replace one cache of the table, and `TableView.Focus`
splits a table at the cache that is replaced.
-/

namespace SlabHeap

/-- A cache and the object of the bootstrap cache that it is stored in. -/
structure StoredView where
  /-- The address of the object. -/
  address : UInt64
  /-- The cache. -/
  view : CacheView
  deriving DecidableEq, Repr

/-- The caches of a table. -/
structure TableView where
  /-- The cache whose objects store the others. -/
  bootstrap : CacheView := { objectSize := bootstrapClass.size }
  /-- The other caches, the newest first. -/
  stored : List StoredView := []
  /-- Whether the bootstrap cache can be found. -/
  registered : Bool := false
  deriving DecidableEq, Repr

/-- The bucket that a size belongs to. -/
def bucketOf (objectSize : UInt64) : Fin bucketCount :=
  ⟨objectSize.toNat % bucketCount, Nat.mod_lt _ (by decide)⟩

/-- A class is known by its size. -/
theorem SizeClass.eq_of_size {cls other : SizeClass} (same : cls.size = other.size) :
    cls = other := by
  cases cls
  exact SizeClass.mk.injEq .. ▸ same

namespace TableView

/-! ## What a table holds -/

/-- All caches. -/
def caches (view : TableView) : List CacheView :=
  view.bootstrap :: view.stored.map StoredView.view

/-- The pages held as slabs. -/
def pages (view : TableView) : Multiset UInt64 := (view.caches.map CacheView.pages).sum

/-- The live objects of all caches. -/
def blocks (size : PageSize) (view : TableView) : Multiset Block :=
  (view.caches.map (CacheView.blocks size)).sum

/-- The addresses of the objects that caches are stored in. -/
def addresses (view : TableView) : List UInt64 := view.stored.map StoredView.address

/-- The objects that caches are stored in. -/
def storages (view : TableView) : Multiset Block :=
  (view.addresses : Multiset UInt64).map fun address => ⟨address, bootstrapClass.size⟩

/-- The caches of a bucket, in the order of its chain. -/
def bucket (view : TableView) (b : Fin bucketCount) : List StoredView :=
  view.stored.filter fun stored => bucketOf stored.view.objectSize = b

/-! ## Operations -/

/-- The cache that was found. -/
def cache (view : TableView) : CacheRef → CacheView
  | .bootstrap => view.bootstrap
  | .stored address =>
    ((view.stored.find? (·.address = address)).map StoredView.view).getD { objectSize := 0 }

/-- Replace a cache that was found. -/
def setCache (view : TableView) (ref : CacheRef) (cache : CacheView) : TableView :=
  match ref with
  | .bootstrap => { view with bootstrap := cache }
  | .stored address =>
    { view with
      stored := view.stored.map fun stored =>
        if stored.address = address then { stored with view := cache } else stored }

/-- The cache of a class, if there is one. -/
def find (view : TableView) (cls : SizeClass) : Option CacheRef :=
  if cls = bootstrapClass then if view.registered then some .bootstrap else none
  else (view.stored.find? (·.view.objectSize = cls.size)).map fun stored => .stored stored.address

/-- The cache that has the page of an object, if it can be found. -/
def holder (size : PageSize) (view : TableView) (object : UInt64) : Option CacheRef :=
  if size.pageOf object ∈ view.bootstrap.pages then
    if view.registered then some .bootstrap else none
  else
    (view.stored.find? (size.pageOf object ∈ ·.view.pages)).map fun stored =>
      .stored stored.address

/-- Serve an object from a cache that was found. -/
def allocFrom (size : PageSize) (view : TableView) (ref : CacheRef) :
    Plan (Except AllocError UInt64 × TableView) := do
  let served ← (view.cache ref).alloc size
  return (served.1, view.setCache ref served.2)

/-- Put an object back into a cache that was found. -/
def freeTo (size : PageSize) (view : TableView) (ref : CacheRef) (object : UInt64) :
    Plan TableView := do
  let cache ← (view.cache ref).free size object
  return view.setCache ref cache

/-- The table with a new cache of a class, stored in an object of the bootstrap
cache. -/
def addCache (view : TableView) (cls : SizeClass) (storage : UInt64) (bootstrap : CacheView) :
    TableView :=
  { view with bootstrap, stored := ⟨storage, { objectSize := cls.size }⟩ :: view.stored }

/-- Create the cache of a class. -/
def create (size : PageSize) (view : TableView) (cls : SizeClass) :
    Plan (Except AllocError CacheRef × TableView) :=
  if view.registered then do
    let served ← view.bootstrap.alloc size
    match served.1 with
    | .error error => return (.error error, view)
    | .ok storage => return (.ok (.stored storage), view.addCache cls storage served.2)
  else return (.error .invalidParam, view)

/-- The cache of a class, created if there is none. -/
def findOrCreate (size : PageSize) (view : TableView) (cls : SizeClass) :
    Plan (Except AllocError CacheRef × TableView) :=
  match view.find cls with
  | some ref => return (.ok ref, view)
  | none => view.create size cls

/-- Serve an object of a class. -/
def alloc (size : PageSize) (view : TableView) (cls : SizeClass) :
    Plan (Except AllocError UInt64 × TableView) := do
  let found ← view.findOrCreate size cls
  match found.1 with
  | .error error => return (.error error, found.2)
  | .ok ref => found.2.allocFrom size ref

/-- Put back an object. -/
def free (size : PageSize) (view : TableView) (object : UInt64) : Plan TableView :=
  match view.holder size object with
  | some ref => view.freeTo size ref object
  | none => return view

/-- The addresses of the stored caches in the order in which they are dropped:
bucket after bucket. -/
def order (view : TableView) : List UInt64 :=
  (List.finRange bucketCount).flatMap fun b => (view.bucket b).map StoredView.address

/-- Drop all caches and give their storage back. -/
def reset (size : PageSize) (view : TableView) : Plan TableView := do
  let bootstrap ← view.order.foldlM (fun cache address => cache.free size address) view.bootstrap
  return { bootstrap }

/-! ## One cache of a table -/

variable {size : PageSize} {view : TableView} {ref : CacheRef} {cache : CacheView}
  {stored : StoredView} {rest : List CacheView} {cls : SizeClass} {object : UInt64}

/-- A table splits into the cache that was found and the rest, and replacing the
cache leaves the rest. -/
structure Focus (view : TableView) (ref : CacheRef) (rest : List CacheView) : Prop where
  before : view.caches.Perm (view.cache ref :: rest)
  after : ∀ cache, (view.setCache ref cache).caches.Perm (cache :: rest)
  addresses : ∀ cache, (view.setCache ref cache).addresses = view.addresses
  registered : ∀ cache, (view.setCache ref cache).registered = view.registered

theorem focus_bootstrap (view : TableView) :
    view.Focus .bootstrap (view.stored.map StoredView.view) :=
  ⟨.refl _, fun _ => .refl _, fun _ => rfl, fun _ => rfl⟩

/-- A stored cache is found by its address and replaced where it stands. -/
theorem exists_split (nodup : view.addresses.Nodup) (mem : stored ∈ view.stored) :
    ∃ front back, view.stored = front ++ stored :: back ∧
      view.cache (.stored stored.address) = stored.view ∧
      ∀ cache, view.setCache (.stored stored.address) cache =
        { view with stored := front ++ { stored with view := cache } :: back } := by
  obtain ⟨front, back, split⟩ := List.append_of_mem mem
  rw [addresses, split, List.map_append, List.map_cons, List.nodup_append] at nodup
  have inFront : ∀ other ∈ front, ¬ other.address = stored.address := fun other mem =>
    nodup.2.2 _ (List.mem_map_of_mem mem) _ List.mem_cons_self
  have inBack : ∀ other ∈ back, ¬ other.address = stored.address := fun other mem same =>
    (List.nodup_cons.1 nodup.2.1).1 (same ▸ List.mem_map_of_mem mem)
  have found : view.stored.find? (·.address = stored.address) = some stored := by
    rw [split, List.find?_append, List.find?_eq_none.2 fun other mem => by simp [inFront other mem]]
    simp
  refine ⟨front, back, split, ?_, fun cache => ?_⟩
  · rw [TableView.cache, found]
    rfl
  · have keep (others : List StoredView)
        (differ : ∀ other ∈ others, ¬ other.address = stored.address) :
        others.map (fun other => if other.address = stored.address then
          { other with view := cache } else other) = others :=
      (List.map_congr_left fun other mem => if_neg (differ other mem)).trans (List.map_id others)
    rw [setCache, split, List.map_append, List.map_cons, keep front inFront, keep back inBack,
      if_pos rfl]

/-- The caches beside one of a table have other addresses. -/
theorem ne_of_split {front back : List StoredView} {other : StoredView}
    (nodup : view.addresses.Nodup) (split : view.stored = front ++ stored :: back)
    (mem : other ∈ front ++ back) : other ∈ view.stored ∧ other.address ≠ stored.address := by
  rw [addresses, split, (List.perm_middle.map _).nodup_iff, List.map_cons, List.nodup_cons]
    at nodup
  refine ⟨?_, fun same => nodup.1 (same ▸ List.mem_map_of_mem mem)⟩
  rw [split]
  exact List.perm_middle.mem_iff.2 (.tail _ mem)

theorem exists_focus_stored (nodup : view.addresses.Nodup) (mem : stored ∈ view.stored) :
    ∃ rest, view.Focus (.stored stored.address) rest ∧ view.bootstrap ∈ rest := by
  obtain ⟨front, back, split, found, replaced⟩ := exists_split nodup mem
  refine ⟨view.bootstrap :: (front ++ back).map StoredView.view, ⟨?_, fun cache => ?_,
    fun cache => ?_, fun cache => ?_⟩, List.mem_cons_self⟩
  · rw [found, caches, split, List.map_append, List.map_cons, List.map_append]
    exact (List.Perm.cons _ List.perm_middle).trans (List.Perm.swap _ _ _)
  · rw [replaced, caches, List.map_append, List.map_cons, List.map_append]
    exact (List.Perm.cons _ List.perm_middle).trans (List.Perm.swap _ _ _)
  · rw [replaced, TableView.addresses, TableView.addresses, split]
    simp
  · rw [replaced]

/-- The reference is to a cache of the table. -/
def Has (view : TableView) : CacheRef → Prop
  | .bootstrap => True
  | .stored address => address ∈ view.addresses

theorem exists_focus (nodup : view.addresses.Nodup) (has : view.Has ref) :
    ∃ rest, view.Focus ref rest := by
  cases ref with
  | bootstrap => exact ⟨_, focus_bootstrap view⟩
  | stored address =>
    obtain ⟨stored, mem, rfl⟩ := List.mem_map.1 has
    obtain ⟨rest, focus, _⟩ := exists_focus_stored nodup mem
    exact ⟨rest, focus⟩

namespace Focus

variable (focus : view.Focus ref rest)

include focus

theorem pages_before :
    view.pages = (view.cache ref).pages + (rest.map CacheView.pages).sum := by
  rw [TableView.pages, (focus.before.map _).sum_eq, List.map_cons, List.sum_cons]

theorem pages_after (cache : CacheView) :
    (view.setCache ref cache).pages = cache.pages + (rest.map CacheView.pages).sum := by
  rw [TableView.pages, ((focus.after cache).map _).sum_eq, List.map_cons, List.sum_cons]

theorem blocks_before : view.blocks size =
    (view.cache ref).blocks size + (rest.map (CacheView.blocks size)).sum := by
  rw [TableView.blocks, (focus.before.map _).sum_eq, List.map_cons, List.sum_cons]

theorem blocks_after (cache : CacheView) : (view.setCache ref cache).blocks size =
    cache.blocks size + (rest.map (CacheView.blocks size)).sum := by
  rw [TableView.blocks, ((focus.after cache).map _).sum_eq, List.map_cons, List.sum_cons]

theorem mem_caches : view.cache ref ∈ view.caches :=
  focus.before.mem_iff.2 List.mem_cons_self

theorem mem_of_rest (mem : cache ∈ rest) : cache ∈ view.caches :=
  focus.before.mem_iff.2 (.tail _ mem)

theorem storages_after (cache : CacheView) :
    (view.setCache ref cache).storages = view.storages := by
  rw [storages, storages, focus.addresses cache]

end Focus

theorem mem_caches_of_has (nodup : view.addresses.Nodup) (has : view.Has ref) :
    view.cache ref ∈ view.caches := by
  obtain ⟨rest, focus⟩ := exists_focus nodup has
  exact focus.mem_caches

theorem pages_addCache (cls : SizeClass) (storage : UInt64) (bootstrap : CacheView) :
    (view.addCache cls storage bootstrap).pages =
      bootstrap.pages + ((view.stored.map StoredView.view).map CacheView.pages).sum := by
  have empty : ({ objectSize := cls.size } : CacheView).pages = 0 := rfl
  simp only [TableView.pages, TableView.caches, addCache, List.map_cons, List.sum_cons, empty,
    Multiset.zero_add]

/-! ## Sound tables -/

/-- The caches have different sizes, all of them rounded, and live objects of the
bootstrap cache store the others. -/
structure Sound (size : PageSize) (view : TableView) : Prop where
  bootstrapSize : view.bootstrap.objectSize = bootstrapClass.size
  caches : ∀ cache ∈ view.caches, cache.Sound size
  classes : (view.caches.map CacheView.objectSize).Nodup
  rounded : ∀ cache ∈ view.caches, cache.objectSize % objectAlign = 0
  storages : (view.addresses : Multiset UInt64) ≤ view.bootstrap.objects size
  registered : view.stored ≠ [] → view.registered = true

/-- The pages of a table are pages, each once. -/
structure Regular (size : PageSize) (view : TableView) : Prop where
  nodup : view.pages.Nodup
  aligned : ∀ page ∈ view.pages, size.Aligned page
  nonzero : ∀ page ∈ view.pages, page ≠ 0

/-- The live objects of users. -/
def users (size : PageSize) (view : TableView) : Multiset Block :=
  view.blocks size - view.storages

theorem pages_le (mem : cache ∈ view.caches) : cache.pages ≤ view.pages :=
  CacheView.pages_le_sum mem

theorem blocks_le (mem : cache ∈ view.caches) : cache.blocks size ≤ view.blocks size :=
  Multiset.le_sum_of_mem (Multiset.mem_coe.2 (List.mem_map_of_mem mem))

/-- A table without stored caches. -/
theorem Sound.alone {bootstrap : CacheView}
    (bootstrapSize : bootstrap.objectSize = bootstrapClass.size) (good : bootstrap.Sound size)
    (registered : Bool) : ({ bootstrap, registered } : TableView).Sound size := by
  refine ⟨bootstrapSize, fun cache mem => ?_, List.nodup_singleton _, fun cache mem => ?_,
    Multiset.zero_le _, fun some => absurd rfl some⟩
  · rw [List.mem_singleton.1 mem]
    exact good
  · rw [List.mem_singleton.1 mem, bootstrapSize]
    exact bootstrapClass.rounded

namespace Sound

variable (sound : view.Sound size)

include sound

theorem storages_le_blocks : view.storages ≤ view.blocks size := by
  have own : view.bootstrap ∈ view.caches := List.mem_cons_self
  refine le_trans ?_ (blocks_le own)
  rw [CacheView.blocks, sound.bootstrapSize]
  exact Multiset.map_le_map sound.storages

/-- What is not a user's object stores a cache. -/
theorem blocks_eq : view.blocks size = view.storages + view.users size := by
  rw [users, add_tsub_cancel_of_le sound.storages_le_blocks]

/-- Replacing a cache by another one of its class. -/
theorem setCache (focus : view.Focus ref rest)
    (sizes : cache.objectSize = (view.cache ref).objectSize) (good : cache.Sound size)
    (storages : (view.addresses : Multiset UInt64) ≤
      (view.setCache ref cache).bootstrap.objects size) :
    (view.setCache ref cache).Sound size := by
  have classes := ((focus.before.map CacheView.objectSize).nodup_iff).1 sound.classes
  rw [List.map_cons, ← sizes, ← List.map_cons] at classes
  refine ⟨?_, fun other mem => ?_, ?_, fun other mem => ?_, ?_, fun some => ?_⟩
  · cases ref with
    | bootstrap => exact sizes.trans sound.bootstrapSize
    | stored address => exact sound.bootstrapSize
  · rcases List.mem_cons.1 ((focus.after cache).mem_iff.1 mem) with rfl | kept
    · exact good
    · exact sound.caches other (focus.mem_of_rest kept)
  · exact (((focus.after cache).map CacheView.objectSize).nodup_iff).2 classes
  · rcases List.mem_cons.1 ((focus.after cache).mem_iff.1 mem) with rfl | kept
    · rw [sizes]
      exact sound.rounded _ focus.mem_caches
    · exact sound.rounded other (focus.mem_of_rest kept)
  · rw [focus.addresses]
    exact storages
  · rw [focus.registered]
    refine sound.registered fun none => some ?_
    have same := focus.addresses cache
    rw [TableView.addresses, TableView.addresses, none] at same
    exact List.map_eq_nil_iff.1 same

/-- The class of a cache is its own. -/
theorem eq_of_objectSize {other : CacheView} (mem : cache ∈ view.caches)
    (mem' : other ∈ view.caches) (same : cache.objectSize = other.objectSize) : cache = other :=
  List.inj_on_of_nodup_map sound.classes mem mem' same

theorem bootstrap_ne (mem : stored ∈ view.stored) : view.bootstrap ≠ stored.view := by
  intro same
  have classes := sound.classes
  rw [TableView.caches, List.map_cons, same, List.nodup_cons] at classes
  exact classes.1 (List.mem_map_of_mem (List.mem_map_of_mem mem))

theorem eq_of_view {other : StoredView} (mem : stored ∈ view.stored)
    (mem' : other ∈ view.stored) (same : stored.view = other.view) : stored = other := by
  have classes := sound.classes
  rw [TableView.caches, List.map_cons, List.nodup_cons] at classes
  exact List.inj_on_of_nodup_map (List.Nodup.of_map _ classes.2) mem mem' same

/-- A cache on good pages is regular, if it has any. -/
theorem regular_of_mem (regular : view.Regular size) (mem : cache ∈ view.caches)
    (some : cache.slabs ≠ []) : cache.Regular size := by
  have le := pages_le mem
  exact (sound.caches cache mem).regular ((sound.caches cache mem).fits some)
    (Multiset.nodup_of_le le regular.nodup)
    (fun page held => regular.aligned page (Multiset.mem_of_le le held))
    (fun page held => regular.nonzero page (Multiset.mem_of_le le held))

theorem nodup_addresses (regular : view.Regular size) : view.addresses.Nodup := by
  by_cases bare : view.bootstrap.slabs = []
  · have empty : view.bootstrap.objects size = 0 := by
      rw [CacheView.objects, bare]
      rfl
    have nothing := sound.storages
    rw [empty, Multiset.le_zero, Multiset.coe_eq_zero] at nothing
    rw [nothing]
    exact List.nodup_nil
  · have own := sound.regular_of_mem regular List.mem_cons_self bare
    exact Multiset.coe_nodup.1 (Multiset.nodup_of_le sound.storages own.nodup_objects)

/-- The objects that caches are stored in lie in pages of the table. -/
theorem pageOf_address (regular : view.Regular size) (mem : object ∈ view.addresses) :
    size.pageOf object ∈ view.pages := by
  have used := Multiset.mem_of_le sound.storages (Multiset.mem_coe.2 mem)
  have own : view.bootstrap ∈ view.caches := List.mem_cons_self
  have some := CacheView.slabs_ne_nil_of_object used
  exact Multiset.mem_of_le (pages_le own)
    ((sound.regular_of_mem regular own some).pageOf_mem used)

end Sound

/-! ## What serving and freeing do -/

section

variable {answer : Except AllocError UInt64} {storage : UInt64} {block : Block}
  (sound : view.Sound size)

include sound

/-- The blocks of a table are all different. -/
theorem Sound.nodup_blocks (regular : view.Regular size) : (view.blocks size).Nodup :=
  CacheView.nodup_blocks (fun _ mem => sound.regular_of_mem regular mem) regular.nodup

theorem Sound.mem_users_iff (regular : view.Regular size) :
    block ∈ view.users size ↔ block ∈ view.blocks size ∧ block ∉ view.storages :=
  Multiset.mem_sub_of_nodup (sound.nodup_blocks regular)

/-- Without stored caches, all blocks are of the bootstrap class. -/
theorem Sound.size_of_alone (alone : view.stored = []) (mem : block ∈ view.users size) :
    block.size = bootstrapClass.size := by
  have served := Multiset.mem_of_le (Multiset.sub_le_self _ _) mem
  obtain ⟨cache, held, own⟩ := CacheView.mem_sum.1 served
  rw [TableView.caches, alone, List.map_nil, List.mem_singleton] at held
  rw [(CacheView.mem_blocks.1 own).2, held, sound.bootstrapSize]

/-- No block of a stored cache is of the bootstrap class. -/
theorem Sound.size_of_stored
    (mem : block ∈ ((view.stored.map StoredView.view).map (CacheView.blocks size)).sum) :
    block.size ≠ bootstrapClass.size := by
  obtain ⟨cache, held, own⟩ := CacheView.mem_sum.1 mem
  obtain ⟨stored, listed, rfl⟩ := List.mem_map.1 held
  rw [(CacheView.mem_blocks.1 own).2, ← sound.bootstrapSize]
  intro same
  exact sound.bootstrap_ne listed
    (sound.eq_of_objectSize List.mem_cons_self (.tail _ held) same.symm)

/-- What a user has stores no cache. -/
theorem Sound.notMem_addresses (regular : view.Regular size)
    (mem : ⟨object, bootstrapClass.size⟩ ∈ view.users size) : object ∉ view.addresses := fun used =>
  ((sound.mem_users_iff regular).1 mem).2
    (Multiset.mem_map.2 ⟨object, Multiset.mem_coe.2 used, rfl⟩)

/-- The objects of a user are objects of the cache of their class. -/
theorem Sound.mem_objects_of_users (regular : view.Regular size) (mem : cache ∈ view.caches)
    (held : ⟨object, cache.objectSize⟩ ∈ view.users size) : object ∈ cache.objects size := by
  obtain ⟨other, mem', own⟩ :=
    CacheView.mem_sum.1 ((sound.mem_users_iff regular).1 held).1
  obtain ⟨served, sizes⟩ := CacheView.mem_blocks.1 own
  rw [sound.eq_of_objectSize mem mem' sizes]
  exact served

/-- The cache of a user's object. -/
theorem Sound.exists_cache_of_users (regular : view.Regular size)
    (held : block ∈ view.users size) :
    ∃ cache ∈ view.caches, cache.objectSize = block.size ∧ block.address ∈ cache.objects size := by
  obtain ⟨cache, mem, own⟩ :=
    CacheView.mem_sum.1 ((sound.mem_users_iff regular).1 held).1
  obtain ⟨served, sizes⟩ := CacheView.mem_blocks.1 own
  exact ⟨cache, mem, sizes.symm, served⟩

/-- The blocks of users have different addresses. -/
theorem Sound.nodup_addresses_users (regular : view.Regular size) :
    ((view.users size).map Block.address).Nodup := by
  have nodup : (view.users size).Nodup :=
    Multiset.nodup_of_le (Multiset.sub_le_self _ _) (sound.nodup_blocks regular)
  refine Multiset.Nodup.map_on (fun block mem other mem' same => ?_) nodup
  obtain ⟨cache, held, sizes, own⟩ := sound.exists_cache_of_users regular mem
  obtain ⟨cache', held', sizes', own'⟩ := sound.exists_cache_of_users regular mem'
  have some := sound.regular_of_mem regular held (CacheView.slabs_ne_nil_of_object own)
  have some' := sound.regular_of_mem regular held' (CacheView.slabs_ne_nil_of_object own')
  have inPage := some'.pageOf_mem own'
  rw [← same] at inPage
  rw [CacheView.eq_of_page regular.nodup held held' (some.pageOf_mem own) inPage] at sizes
  cases block
  cases other
  cases same
  cases sizes.symm.trans sizes'
  rfl

/-- Serving an object from one of the caches. -/
theorem Sound.served (focus : view.Focus ref rest)
    (allocated : (view.cache ref).Allocated size answer cache) :
    (view.setCache ref cache).Sound size ∧ (view.setCache ref cache).users size =
      (granted answer).map (fun object => ⟨object, (view.cache ref).objectSize⟩) +
        view.users size := by
  have blocks : cache.blocks size =
      (granted answer).map (fun object => ⟨object, (view.cache ref).objectSize⟩) +
        (view.cache ref).blocks size := by
    rw [CacheView.blocks, CacheView.blocks, allocated.objectSize, allocated.objects,
      Multiset.map_add]
  refine ⟨sound.setCache focus allocated.objectSize allocated.sound ?_, ?_⟩
  · cases ref with
    | bootstrap =>
      have grown : cache.objects size = granted answer + view.bootstrap.objects size :=
        allocated.objects
      refine sound.storages.trans ?_
      rw [TableView.setCache, grown]
      exact Multiset.le_add_left _ _
    | stored address => exact sound.storages
  · rw [users, users, focus.storages_after, focus.blocks_after, blocks, add_assoc,
      ← focus.blocks_before, add_tsub_assoc_of_le sound.storages_le_blocks]

/-- Freeing an object of a user. -/
theorem Sound.freed (regular : view.Regular size) (focus : view.Focus ref rest)
    (mem : ⟨object, (view.cache ref).objectSize⟩ ∈ view.users size)
    (freed : (view.cache ref).Freed size {object} cache) :
    (view.setCache ref cache).Sound size ∧ view.users size =
      ⟨object, (view.cache ref).objectSize⟩ ::ₘ (view.setCache ref cache).users size := by
  have blocks : (view.cache ref).blocks size =
      ⟨object, (view.cache ref).objectSize⟩ ::ₘ cache.blocks size := by
    rw [CacheView.blocks, CacheView.blocks, freed.objectSize, freed.objects, Multiset.singleton_add,
      Multiset.map_cons]
  have good : (view.setCache ref cache).Sound size := by
    refine sound.setCache focus freed.objectSize freed.sound ?_
    cases ref with
    | bootstrap =>
      have shrunk : view.bootstrap.objects size = object ::ₘ cache.objects size := by
        rw [← Multiset.singleton_add]
        exact freed.objects
      have own : view.cache .bootstrap = view.bootstrap := rfl
      rw [own, sound.bootstrapSize] at mem
      have used := sound.storages
      rw [shrunk] at used
      exact (Multiset.le_cons_of_notMem (sound.notMem_addresses regular mem)).1 used
    | stored address => exact sound.storages
  refine ⟨good, ?_⟩
  have fewer := good.storages_le_blocks
  rw [focus.storages_after, focus.blocks_after] at fewer
  rw [users, users, focus.storages_after, focus.blocks_after, focus.blocks_before, blocks,
    Multiset.cons_add, ← Multiset.singleton_add, ← Multiset.singleton_add,
    add_tsub_assoc_of_le fewer]

/-- Creating a cache of a class that has none. -/
theorem Sound.created {bootstrap : CacheView} (registered : view.registered = true)
    (absent : ∀ cache ∈ view.caches, cache.objectSize ≠ cls.size)
    (allocated : view.bootstrap.Allocated size (.ok storage) bootstrap) :
    (view.addCache cls storage bootstrap).Sound size ∧
      (view.addCache cls storage bootstrap).users size = view.users size := by
  have grown : bootstrap.objects size = storage ::ₘ view.bootstrap.objects size :=
    allocated.objects
  have sizes := allocated.objectSize
  have mem_caches {cache : CacheView} (mem : cache ∈ (view.addCache cls storage bootstrap).caches) :
      cache = bootstrap ∨ cache = { objectSize := cls.size } ∨
        cache ∈ view.stored.map StoredView.view := by
    rcases List.mem_cons.1 mem with own | mem
    · exact .inl own
    · exact .inr (List.mem_cons.1 mem)
  have names : (view.addCache cls storage bootstrap).addresses = storage :: view.addresses := rfl
  refine ⟨⟨sizes.trans sound.bootstrapSize, fun cache mem => ?_, ?_, fun cache mem => ?_, ?_,
    fun _ => registered⟩, ?_⟩
  · rcases mem_caches mem with rfl | rfl | other
    · exact allocated.sound
    · exact .nil size _
    · exact sound.caches cache (.tail _ other)
  · have classes := sound.classes
    rw [TableView.caches, List.map_cons, List.nodup_cons] at classes
    have others : ((view.addCache cls storage bootstrap).caches.map CacheView.objectSize) =
        view.bootstrap.objectSize :: cls.size ::
          (view.stored.map StoredView.view).map CacheView.objectSize := by
      rw [← sizes]
      rfl
    rw [others, List.nodup_cons, List.nodup_cons]
    refine ⟨fun mem => ?_, fun mem => ?_, classes.2⟩
    · rcases List.mem_cons.1 mem with same | mem
      · exact absent view.bootstrap List.mem_cons_self same
      · exact classes.1 mem
    · obtain ⟨cache, held, same⟩ := List.mem_map.1 mem
      exact absent cache (.tail _ held) same
  · rcases mem_caches mem with rfl | rfl | other
    · rw [sizes]
      exact sound.rounded _ List.mem_cons_self
    · exact cls.rounded
    · exact sound.rounded cache (.tail _ other)
  · rw [names, ← Multiset.cons_coe]
    have own : (view.addCache cls storage bootstrap).bootstrap = bootstrap := rfl
    rw [own, grown]
    exact Multiset.cons_le_cons _ sound.storages
  · have storages : (view.addCache cls storage bootstrap).storages =
        {⟨storage, bootstrapClass.size⟩} + view.storages := by
      rw [TableView.storages, TableView.storages, names, ← Multiset.cons_coe, Multiset.map_cons,
        Multiset.singleton_add]
    have blocks : (view.addCache cls storage bootstrap).blocks size =
        {⟨storage, bootstrapClass.size⟩} + view.blocks size := by
      have own : bootstrap.blocks size =
          ⟨storage, bootstrapClass.size⟩ ::ₘ view.bootstrap.blocks size := by
        rw [CacheView.blocks, CacheView.blocks, sizes, grown, Multiset.map_cons,
          sound.bootstrapSize]
      have empty : ({ objectSize := cls.size } : CacheView).blocks size = 0 := rfl
      simp only [TableView.blocks, TableView.caches, addCache, List.map_cons, List.sum_cons, own,
        empty, Multiset.zero_add, Multiset.cons_add, Multiset.singleton_add]
    rw [users, users, storages, blocks, add_tsub_add_eq_tsub_left]

end

/-- The stored caches in the order in which they are dropped. -/
theorem order_perm (view : TableView) : view.order.Perm view.addresses := by
  have buckets : ((List.finRange bucketCount).flatMap view.bucket).Perm view.stored := by
    refine List.perm_iff_count.2 fun stored => ?_
    have count (b : Fin bucketCount) : (view.bucket b).count stored =
        if bucketOf stored.view.objectSize = b then view.stored.count stored else 0 := by
      split
      · rename_i same
        exact List.count_filter (decide_eq_true same)
      · rename_i differ
        refine List.count_eq_zero_of_not_mem fun mem => differ ?_
        exact of_decide_eq_true (List.mem_filter.1 mem).2
    rw [List.count_flatMap, ← Fin.sum_univ_def]
    simp only [Function.comp, count, Finset.sum_ite_eq, Finset.mem_univ, if_true]
  rw [order, ← List.map_flatMap]
  exact buckets.map _

/-- References are to the bootstrap cache and to the caches listed. -/
theorem has_iff_mem_order : view.Has ref ↔ ref ∈ CacheRef.bootstrap :: view.order.map .stored := by
  cases ref with
  | bootstrap => simp [Has]
  | stored address => simp [Has, view.order_perm.mem_iff]

/-- A class has one reference. -/
theorem Sound.ref_inj {ref' : CacheRef} (sound : view.Sound size) (nodup : view.addresses.Nodup)
    (has : view.Has ref) (has' : view.Has ref')
    (sizes : (view.cache ref).objectSize = (view.cache ref').objectSize) : ref = ref' := by
  have same := sound.eq_of_objectSize (mem_caches_of_has nodup has) (mem_caches_of_has nodup has')
    sizes
  cases ref with
  | bootstrap =>
    cases ref' with
    | bootstrap => rfl
    | stored address =>
      obtain ⟨stored, mem, rfl⟩ := List.mem_map.1 has'
      obtain ⟨_, _, _, found, _⟩ := exists_split nodup mem
      exact absurd (same.trans found) (sound.bootstrap_ne mem)
  | stored address =>
    obtain ⟨stored, mem, rfl⟩ := List.mem_map.1 has
    obtain ⟨_, _, _, found, _⟩ := exists_split nodup mem
    cases ref' with
    | bootstrap => exact absurd (same.symm.trans found) (sound.bootstrap_ne mem)
    | stored address' =>
      obtain ⟨stored', mem', rfl⟩ := List.mem_map.1 has'
      obtain ⟨_, _, _, found', _⟩ := exists_split nodup mem'
      rw [sound.eq_of_view mem mem' (found.symm.trans (same.trans found'))]

/-! ## Finding a cache -/

/-- What is found has the class asked for. -/
theorem find_some (sound : view.Sound size) (regular : view.Regular size)
    (found : view.find cls = some ref) :
    view.Has ref ∧ (view.cache ref).objectSize = cls.size := by
  unfold find at found
  split at found
  · rename_i same
    split at found
    · cases found
      rw [same]
      exact ⟨trivial, sound.bootstrapSize⟩
    · cases found
  · obtain ⟨stored, first, rfl⟩ := Option.map_eq_some_iff.1 found
    have mem := List.mem_of_find?_eq_some first
    obtain ⟨_, _, _, same, _⟩ := exists_split (sound.nodup_addresses regular) mem
    refine ⟨List.mem_map_of_mem mem, ?_⟩
    have test := List.find?_some first
    rw [decide_eq_true_eq] at test
    rw [same]
    exact test

/-- Where nothing is found, no stored cache has the class, nor has the bootstrap
cache once it is registered. -/
theorem find_none (found : view.find cls = none) (registered : view.registered = true)
    (bootstrapSize : view.bootstrap.objectSize = bootstrapClass.size) :
    ∀ cache ∈ view.caches, cache.objectSize ≠ cls.size := by
  unfold find at found
  split at found
  · cases found
  · rename_i other
    intro cache mem same
    rcases List.mem_cons.1 mem with rfl | mem
    · rw [bootstrapSize] at same
      refine other ?_
      cases cls
      exact SizeClass.mk.injEq .. ▸ same.symm
    · obtain ⟨stored, held, rfl⟩ := List.mem_map.1 mem
      have absent := List.find?_eq_none.1 (Option.map_eq_none_iff.1 found) stored held
      exact absent (decide_eq_true same)

/-- A class that has a cache finds it, once the bootstrap cache is registered. -/
theorem Sound.find_of_mem (sound : view.Sound size) (regular : view.Regular size)
    (registered : view.registered = true) (mem : cache ∈ view.caches)
    (sizes : cls.size = cache.objectSize) :
    ∃ ref, view.find cls = some ref ∧ view.Has ref ∧ view.cache ref = cache := by
  cases found : view.find cls with
  | none => exact absurd sizes.symm (find_none found registered sound.bootstrapSize cache mem)
  | some ref =>
    obtain ⟨has, same⟩ := find_some sound regular found
    obtain ⟨rest, focus⟩ := exists_focus (sound.nodup_addresses regular) has
    exact ⟨ref, rfl, has, sound.eq_of_objectSize focus.mem_caches mem (same.trans sizes)⟩

/-- The cache that has the page of an object is the one found by its class. -/
theorem Sound.holder_eq_find (sound : view.Sound size) (regular : view.Regular size)
    (mem : cache ∈ view.caches) (held : size.pageOf object ∈ cache.pages)
    (sizes : cls.size = cache.objectSize) : view.holder size object = view.find cls := by
  have own {other : CacheView} (mem' : other ∈ view.caches) :
      size.pageOf object ∈ other.pages ↔ other.objectSize = cls.size := by
    rw [sizes]
    constructor
    · intro held'
      rw [CacheView.eq_of_page regular.nodup mem' mem held' held]
    · intro same
      rw [sound.eq_of_objectSize mem' mem same]
      exact held
  have bootstrap : size.pageOf object ∈ view.bootstrap.pages ↔ cls = bootstrapClass := by
    rw [own List.mem_cons_self, sound.bootstrapSize]
    exact ⟨fun same => SizeClass.eq_of_size same.symm, fun same => same ▸ rfl⟩
  unfold holder find
  by_cases same : cls = bootstrapClass
  · rw [if_pos (bootstrap.2 same), if_pos same]
  · rw [if_neg fun held => same (bootstrap.1 held), if_neg same]
    congr 1
    refine List.find?_congr fun stored mem => ?_
    rw [Bool.eq_iff_iff, decide_eq_true_eq, decide_eq_true_eq]
    exact own (.tail _ (List.mem_map_of_mem mem))

end TableView

end SlabHeap
