import SlabHeap.Allocator
import SlabHeap.Proofs.TableOperations

/-!
# Allocators refine tables

The abstract allocator is a table and whether it is open.  It rounds requests to
classes as the allocator does.  A freed object is found by its page, where the
allocator reads the object size in the slab; that both come to the same cache is
`TableView.Sound.holder_eq_find`.

Each operation carries out its plan.  Serving adds one block to what users hold,
freeing takes one away, and teardown gives up the blocks of all caches but the
bootstrap cache.
-/

namespace SlabHeap

/-- The size of the objects that serve a request. -/
def servedSize (bytes : UInt64) : UInt64 :=
  match SizeClass.ofRequest? bytes with
  | some cls => cls.size
  | none => 0

/-- Classes of requests are neither empty nor too large. -/
theorem SizeClass.size_of_request {bytes : UInt64} {cls : SizeClass}
    (h : ofRequest? bytes = some cls) : 0 < cls.size.toNat ∧ cls.size ≤ maxObjectSize := by
  unfold ofRequest? at h
  split at h
  · cases h
  · rename_i small
    rw [UInt64.not_lt, UInt64.le_iff_toNat_le] at small
    obtain rfl := Option.some.inj h
    have most : maxObjectSize.toNat = 4048 := rfl
    have least : minObjectSize.toNat = 32 := rfl
    have unit : objectAlign.toNat = 16 := rfl
    have raised : 32 ≤ (max bytes minObjectSize).toNat ∧
        (max bytes minObjectSize).toNat ≤ 4048 := by
      have choice : max bytes minObjectSize =
          if bytes ≤ minObjectSize then minObjectSize else bytes := rfl
      rw [choice]
      split
      · rw [least]
        omega
      · rename_i large
        rw [UInt64.le_iff_toNat_le] at large
        omega
    have rounded : (max bytes minObjectSize + (objectAlign - 1)).toNat =
        (max bytes minObjectSize).toNat + 15 := by
      have rest : (objectAlign - 1).toNat = 15 := rfl
      rw [UInt64.toNat_add, rest, Nat.mod_eq_of_lt (by omega)]
    rw [UInt64.le_iff_toNat_le, toNat_clearBelow ⟨4, rfl⟩, rounded, unit, most]
    omega

theorem exists_class_of_servedSize {bytes : UInt64} (pos : 0 < (servedSize bytes).toNat) :
    ∃ cls, SizeClass.ofRequest? bytes = some cls ∧ cls.size = servedSize bytes := by
  unfold servedSize at pos ⊢
  split at pos
  · rename_i cls request
    exact ⟨cls, request, rfl⟩
  · exact absurd pos (Nat.lt_irrefl 0)

/-- The caches of an allocator, and whether it serves requests. -/
structure AllocatorView where
  /-- The caches. -/
  table : TableView := {}
  /-- Whether the allocator is open. -/
  initialized : Bool := false
  deriving DecidableEq, Repr

namespace AllocatorView

/-! ## Operations -/

/-- Open the allocator. -/
def init (view : AllocatorView) : AllocatorView :=
  if view.initialized then view
  else { table := { view.table with registered := true }, initialized := true }

/-- Serve an object of a class. -/
def allocOf (size : PageSize) (view : AllocatorView) (cls : SizeClass) :
    Plan (Except AllocError UInt64 × AllocatorView) := do
  let served ← view.table.alloc size cls
  return (served.1, { view with table := served.2 })

/-- Serve an object of at least the given size. -/
def alloc (size : PageSize) (view : AllocatorView) (bytes : UInt64) :
    Plan (Except AllocError UInt64 × AllocatorView) :=
  if view.initialized then
    match SizeClass.ofRequest? bytes with
    | none => return (.error .invalidParam, view)
    | some cls => view.allocOf size cls
  else return (.error .noMemory, view)

/-- Put back an object. -/
def free (size : PageSize) (view : AllocatorView) (object : UInt64) : Plan AllocatorView :=
  if view.initialized then do
    let table ← view.table.free size object
    return { view with table }
  else return view

/-- Close the allocator. -/
def teardown (size : PageSize) (view : AllocatorView) : Plan AllocatorView :=
  if view.initialized then do
    let table ← view.table.reset size
    return { table, initialized := false }
  else return view

/-- The caches that teardown gives up. -/
def dropped (view : AllocatorView) : List CacheView :=
  if view.initialized then view.table.stored.map StoredView.view else []

theorem dropped_opened {view : AllocatorView} (opened : view.initialized = true) :
    view.dropped = view.table.stored.map StoredView.view := by
  rw [dropped, opened, if_pos rfl]

/-! ## Allocators in memory -/

/-- The table is sound, and its bootstrap cache is registered exactly while the
allocator is open. -/
structure Sound (size : PageSize) (view : AllocatorView) : Prop where
  table : view.table.Sound size
  registered : view.table.registered = view.initialized

/-- The allocator in memory is as the view has it. -/
structure Describes (size : PageSize) (view : AllocatorView) (allocator : Allocator)
    (store : CacheStore) (memory : Memory) : Prop where
  table : view.table.Describes size allocator.table store memory
  initialized : allocator.initialized = view.initialized

theorem Sound.fresh (size : PageSize) : ({} : AllocatorView).Sound size :=
  ⟨.alone rfl (.nil size _) false, rfl⟩

theorem Describes.fresh (size : PageSize) (store : CacheStore) (memory : Memory) :
    ({} : AllocatorView).Describes size {} store memory := by
  refine ⟨⟨rfl, .fresh size _ memory, nofun, fun b => ?_⟩, rfl⟩
  exact Vector.getElem_replicate b.isLt

end AllocatorView

open AllocatorView

/-! ## Operations carry out plans -/

section

variable {size : PageSize} {σ : Type} {heap : Heap σ} {view : AllocatorView}
  {allocator : Allocator} {cls : SizeClass} {object : UInt64} {others : Multiset UInt64}

/-- Opening an allocator. -/
theorem Allocator.init_ok (sound : view.Sound size)
    (h : view.Describes size allocator heap.store heap.memory) :
    ∃ allocator' journal, allocator.init heap = .ok allocator' { heap with journal } ∧
      view.init.Describes size allocator' heap.store heap.memory ∧ view.init.Sound size ∧
      view.init.table.users size = view.table.users size ∧
      view.init.table.pages = view.table.pages ∧ view.init.initialized = true := by
  unfold Allocator.init AllocatorView.init
  rw [h.initialized]
  rcases opened : view.initialized with _ | _
  · rw [if_neg Bool.false_ne_true, if_neg Bool.false_ne_true]
    refine ⟨_, _, rfl, ⟨⟨rfl, h.table.bootstrap, h.table.stored, h.table.buckets⟩, rfl⟩,
      ⟨⟨sound.table.bootstrapSize, sound.table.caches, sound.table.classes, sound.table.rounded,
        sound.table.storages, fun _ => rfl⟩, rfl⟩, rfl, rfl, rfl⟩
  · rw [if_pos rfl, if_pos rfl]
    exact ⟨allocator, _, rfl, h, sound, rfl, rfl, opened⟩

variable [PageSource σ] {model : PageModel size σ} {source : model.View} (sound : view.Sound size)
  (h : view.Describes size allocator heap.store heap.memory)
  (known : model.Describes source (view.table.pages + others) heap.source heap.memory)

include sound h known

/-- Serving an object of a class. -/
theorem Allocator.allocOf_follows (fits : size.Fits bootstrapClass.size)
    (room : size.Fits cls.size) :
    Follows model (allocator.allocOf size cls) (view.allocOf size cls) heap source
      fun result answer heap' source' => result.1 = answer.1 ∧
        result.2.initialized = allocator.initialized ∧
        answer.2.initialized = view.initialized ∧
        TableView.Served model others heap view.table
          ((granted answer.1).map fun object => ⟨object, cls.size⟩) heap' source' answer.2.table
          result.2.table := by
  unfold allocOf AllocatorView.allocOf TableView.alloc
  rw [bind_assoc]
  refine (CacheTable.provide_follows sound.table h.table known fits).bind ?_
  rintro _ ⟨found, table₁⟩ heap₁ source₁ ⟨table, rfl, served, refused, has⟩
  cases found with
  | error error =>
    obtain rfl := refused error rfl
    exact .step (HeapM.report_ok _) (.done ⟨rfl, rfl, rfl, served.noted _⟩)
  | ok ref =>
    obtain ⟨present, sizes⟩ := has ref rfl
    have fitting := sizes.symm ▸ room
    refine (CacheTable.allocFrom_follows served.sound served.describes served.source present
      fitting).bind ?_
    rintro _ ⟨answer, table₂⟩ heap₂ source₂ ⟨table', rfl, served', kept⟩
    have both := served.trans served'
    dsimp only at both sizes
    rw [add_zero, sizes] at both
    cases answer with
    | error error =>
      obtain rfl := kept error rfl
      exact .done ⟨rfl, rfl, rfl, both⟩
    | ok object => exact .done ⟨rfl, rfl, rfl, both⟩

/-- Serving an object. -/
theorem Allocator.alloc_follows (fits : size.Fits maxObjectSize) (bytes : UInt64) :
    Follows model (allocator.alloc size bytes) (view.alloc size bytes) heap source
      fun result answer heap' source' => result.1 = answer.1 ∧
        result.2.initialized = allocator.initialized ∧
        answer.2.initialized = view.initialized ∧
        TableView.Served model others heap view.table
          ((granted answer.1).map fun object => ⟨object, servedSize bytes⟩) heap' source'
          answer.2.table result.2.table := by
  have nothing := TableView.Served.refl sound.table h.table known
  unfold Allocator.alloc AllocatorView.alloc
  rcases opened : view.initialized with _ | _
  · have closed : ¬ allocator.initialized = true := by
      rw [h.initialized, opened]
      exact Bool.false_ne_true
    rw [if_neg closed, if_neg Bool.false_ne_true]
    exact .step (HeapM.report_ok _) (.done ⟨rfl, rfl, opened, nothing.noted _⟩)
  rw [if_pos (h.initialized.trans opened), if_pos rfl]
  have served (journal : List Event) : Follows model
      (match SizeClass.ofRequest? bytes with
        | none => do
          HeapM.report (.tooLarge bytes maxObjectSize)
          return (.error .invalidParam, allocator)
        | some cls => allocator.allocOf size cls)
      (match SizeClass.ofRequest? bytes with
        | none => return (.error .invalidParam, view)
        | some cls => view.allocOf size cls) { heap with journal } source
      fun result answer heap' source' => result.1 = answer.1 ∧
        result.2.initialized = allocator.initialized ∧ answer.2.initialized = true ∧
        TableView.Served model others heap view.table
          ((granted answer.1).map fun object => ⟨object, servedSize bytes⟩) heap' source'
          answer.2.table result.2.table := by
    rcases request : SizeClass.ofRequest? bytes with _ | cls
    · exact .step (HeapM.report_ok _) (.done ⟨rfl, rfl, opened, nothing.noted _⟩)
    · obtain ⟨pos, le⟩ := SizeClass.size_of_request request
      have sizes : servedSize bytes = cls.size := by rw [servedSize, request]
      have h' : view.Describes size allocator ({ heap with journal } : Heap σ).store
        ({ heap with journal } : Heap σ).memory := h
      refine (allocOf_follows sound h' known (fits.of_le (by decide) (by decide))
        (fits.of_le pos le)).mono ?_
      rintro result answer heap' source' ⟨same, kept, kept', served⟩
      rw [sizes]
      exact ⟨same, kept, kept'.trans opened, served.of_noted⟩
  dsimp only
  by_cases small : bytes < minObjectSize
  · rw [if_pos small]
    exact .step (HeapM.report_ok _) (served _)
  · rw [if_neg small]
    exact served heap.journal

/-- Freeing an object of a user. -/
theorem Allocator.free_follows {block : Block} (opened : view.initialized = true)
    (mem : block ∈ view.table.users size) :
    Follows model (allocator.free size block.address) (view.free size block.address) heap source
      fun allocator' view' heap' source' => allocator'.initialized = allocator.initialized ∧
        view'.initialized = view.initialized ∧
        TableView.Freed model others heap view.table {block} heap' source' view'.table
          allocator'.table := by
  have regular := TableView.Regular.of_source known
  obtain ⟨cache, held, sizes, object⟩ := sound.table.exists_cache_of_users regular mem
  have some := CacheView.slabs_ne_nil_of_object object
  have own := sound.table.regular_of_mem regular held some
  have page := own.pageOf_mem object
  have rounded : block.size % objectAlign = 0 := sizes ▸ sound.table.rounded cache held
  have registered := sound.registered.trans opened
  obtain ⟨ref, found, has, same⟩ := sound.table.find_of_mem regular registered held
    (show (SizeClass.mk block.size rounded).size = cache.objectSize from sizes.symm)
  have holder := sound.table.holder_eq_find regular held page
    (show (SizeClass.mk block.size rounded).size = cache.objectSize from sizes.symm)
  have noted : (Slab.mk (size.pageOf block.address)).objectSize heap.memory = block.size := by
    obtain ⟨slab, listed, base⟩ := List.mem_map.1 (Multiset.mem_coe.1 page)
    have described := (h.table.cacheOf sound.table regular has).slabs slab (same ▸ listed)
    have size := described.sizeNoted
    rw [SlabView.slab, base, same, sizes] at size
    exact size
  have cls : SizeClass.ofRounded block.size = .ok ⟨block.size, rounded⟩ := by
    rw [SizeClass.ofRounded, dif_pos rounded]
  unfold Allocator.free AllocatorView.free TableView.free
  rw [if_pos (h.initialized.trans opened), if_pos opened, holder, found]
  refine .step (HeapM.check_of_ok (Slab.containing_eq size _)) (.step HeapM.memory_ok ?_)
  rw [noted]
  refine .step (HeapM.check_of_ok cls) (.step get_ok ?_)
  refine .step (HeapM.check_of_ok ((h.table.find_eq _).trans (congrArg _ found))) ?_
  have users : ⟨block.address, (view.table.cache ref).objectSize⟩ ∈ view.table.users size := by
    rw [same, sizes]
    exact mem
  refine (CacheTable.freeTo_follows sound.table h.table known has users).bind ?_
  intro table' view' heap' source' freed
  rw [same, sizes] at freed
  exact .done ⟨rfl, rfl, freed⟩

/-- Tearing an allocator down. -/
theorem Allocator.teardown_follows (opened : view.initialized = true) :
    Follows model (allocator.teardown size) (view.teardown size) heap source
      fun allocator' view' heap' source' => allocator'.initialized = false ∧
        view'.initialized = false ∧
        TableView.Dropped model others heap view.table heap' source' view'.table
          allocator'.table := by
  unfold Allocator.teardown AllocatorView.teardown
  rw [h.initialized, opened, if_pos rfl, if_pos rfl]
  refine (CacheTable.reset_follows sound.table h.table known).bind ?_
  intro table' view' heap' source' dropped
  exact .done ⟨rfl, rfl, dropped⟩

end

end SlabHeap
