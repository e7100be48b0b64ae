import SlabHeap.Proofs.SharedView
import SlabHeap.Proofs.TableUpdates

/-!
# There and back

An object that is served and put back leaves no trace: the cache has the same slabs in the
same order, with the same stacks of free slots (`CacheView.free_reverts`).  It does not matter
whether the slab filled up in between, or was opened for the object and given back with it, and
the pool may have been used in between if its stack is as it was (`Plan.Reverts`).

The other way round the cache may differ.  An object that is put back is served again exactly
if its slab is in front then, or if its page is opened anew and the object is in the first slot
(`CacheView.Located.free_alloc`).
-/

namespace SlabHeap

/-! ## The first slot -/

theorem PageSize.Fits.zero_inRange {size : PageSize} {objectSize : UInt64}
    (fits : size.Fits objectSize) : (0 : UInt64).toNat < size.slots objectSize := fits.slots_pos

theorem PageSize.head_allSlots {size : PageSize} {objectSize slot : UInt64} {free : List UInt64}
    (whole : size.allSlots objectSize = slot :: free) : slot = 0 := by
  unfold allSlots at whole
  cases slots : size.slots objectSize with
  | zero =>
    rw [slots] at whole
    cases whole
  | succ count =>
    rw [slots, List.range_succ_eq_map] at whole
    cases whole
    rfl

namespace CacheView

variable {size : PageSize} {view view' : CacheView} {slab : SlabView}
  {base slot object page : UInt64} {free : List UInt64} {front back rest : List SlabView} {pool pool' : PoolView}

/-! ## Serving and putting back -/

/-- A slab that left the list as full comes back to where it was. -/
theorem reopen_retire (absent : base ∉ view.full) (first : view.room = ⟨base, free⟩ :: rest) :
    view.retire.reopen base = view := by
  obtain ⟨objectSize, room, full⟩ := view
  obtain rfl : room = _ := first
  cases free with
  | nil => simp only [retire, reopen, List.mem_cons_self, if_true, List.erase_cons_head]
  | cons slot free => exact if_neg absent

/-- No slab is listed with all its slots free. -/
theorem Sound.not_emptied (sound : view.Sound size) (base : UInt64) :
    ¬ view.Emptied size base := by
  rintro ⟨slab, listed, _, all⟩
  exact absurd all (Nat.ne_of_lt (sound.some slab listed))

section Regular

variable (regular : view.Regular size)

include regular

/-- A slot that is taken and put back is on top of its stack again. -/
theorem Regular.returned_serve (first : view.room = ⟨base, slot :: free⟩ :: rest) :
    (view.serve size).2.returned size (view.serve size).1 = view := by
  have listed : SlabView.mk base (slot :: free) ∈ view.room := first ▸ List.mem_cons_self
  have held : SlabView.mk base (slot :: free) ∈ view.slabs := List.mem_append_left _ listed
  have aligned : size.Aligned base := regular.aligned _ (mem_pages held)
  have inRange := (regular.slabs _ held).inRange slot List.mem_cons_self
  have absent : base ∉ view.full := notMem_full regular.nodup listed
  have again : ({ view with room := ⟨base, free⟩ :: rest } : CacheView).retire.reopen base = _ :=
    reopen_retire absent rfl
  have pushed : (push { view with room := ⟨base, free⟩ :: rest } base slot).room = view.room :=
    (room_push (regular.take first).1.nodup (List.nil_append _).symm slot).trans first.symm
  have served : view.serve size = (size.slotAddress view.objectSize base slot,
      ({ view with room := ⟨base, free⟩ :: rest } : CacheView).retire) := by
    rw [serve, first]
  rw [served, returned]
  dsimp only
  rw [retire_objectSize, regular.fits.pageOf_slotAddress aligned inRange,
    regular.fits.slotAt_slotAddress aligned inRange, again]
  exact congrArg (fun room => { view with room }) pushed

theorem Regular.pageOf_serve (first : view.room = ⟨base, slot :: free⟩ :: rest) :
    size.pageOf (view.serve size).1 = base := by
  have held : SlabView.mk base (slot :: free) ∈ view.slabs :=
    List.mem_append_left _ (first ▸ List.mem_cons_self)
  rw [serve, first]
  exact regular.fits.pageOf_slotAddress (regular.aligned _ (mem_pages held))
    ((regular.slabs _ held).inRange slot List.mem_cons_self)

/-- Serving from a listed slab is undone by freeing. -/
theorem Regular.free_serve (sound : view.Sound size)
    (first : view.room = ⟨base, slot :: free⟩ :: rest) :
    (view.serve size).2.free size (view.serve size).1 = .done view := by
  unfold CacheView.free
  rw [regular.returned_serve first]
  exact if_neg (sound.not_emptied _)

end Regular

/-- The first object of a fresh page is in the first slot. -/
theorem openSlab_serve (fits : size.Fits view.objectSize) (empty : view.room = []) :
    ((view.openSlab size page).serve size).1 = size.slotAddress view.objectSize page 0 := by
  obtain ⟨slot, free, first, _⟩ := openSlab_front fits empty page
  have whole : size.allSlots view.objectSize = slot :: free := by
    rw [openSlab, SlabView.fresh, empty] at first
    exact congrArg SlabView.free (List.cons.inj first).1
  rw [serve, first, PageSize.head_allSlots whole]
  rfl

/-- Serving from a slab that was opened for it is undone by freeing, and its page is given
back. -/
theorem free_serve_openSlab (empty : view.room = [])
    (opened : (view.openSlab size page).Regular size) :
    ((view.openSlab size page).serve size).2.free size ((view.openSlab size page).serve size).1 =
      .give page (.done view) := by
  have fits : size.Fits view.objectSize := opened.fits
  obtain ⟨slot, free, first, _, all⟩ := openSlab_front fits empty page
  have listed : SlabView.mk page (slot :: free) ∈ (view.openSlab size page).room :=
    first ▸ List.mem_cons_self
  have dropped : (view.openSlab size page).drop page = view := by
    have gone : ((view.openSlab size page).drop page).room = view.room := by
      have left := room_drop opened.nodup (first.trans (List.nil_append _).symm)
      rw [empty]
      exact left
    exact congrArg (fun room => { view with room }) gone
  unfold CacheView.free
  rw [opened.returned_serve first, opened.pageOf_serve first]
  dsimp only
  rw [if_pos ⟨_, listed, rfl, all⟩, dropped]

end CacheView

/-! ## Plans that lead back -/

/-- The plan leads back to a state, if the pool has its stack again.  The pages are those that
were taken from the pool on the way there, and they are given back. -/
structure Plan.Reverts {α : Type} (back : Plan α) (before : α) (pool pool' : PoolView)
    (pages : List UInt64) : Prop where
  taken : pool.free = pages ++ pool'.free
  added : pool'.added = pool.added
  released : pool'.released = pool.released
  back : ∀ later : PoolView, later.free = pool'.free → later.added = pool'.added →
    ∃ last, back.run later = (before, last) ∧ last.free = pool.free ∧ last.added = pool.added ∧
      last.released = pages ++ later.released

/-- A page that a pool hands out was the top of its stack. -/
theorem PoolView.take_ok {pool pool' : PoolView} {page : UInt64}
    (taken : pool.take = (.ok page, pool')) :
    pool.free = page :: pool'.free ∧ pool'.added = pool.added ∧
      pool'.released = pool.released := by
  have popped (asked : PoolView) (h : asked.pop = (.ok page, pool')) :
      asked.free = page :: pool'.free ∧ pool'.added = asked.added ∧
        pool'.released = asked.released := by
    unfold pop at h
    split at h
    · cases h
    · rename_i first rest free
      cases h
      exact ⟨free, rfl, rfl⟩
  unfold take at taken
  dsimp only at taken
  split at taken
  · exact popped { pool with requests := pool.requests + 1 } taken
  · cases taken
  · rename_i after error _
    exact popped { pool with requests := pool.requests + 1, refusal := some ⟨after, error⟩ } taken

/-- A page that was given back is the next one to be taken. -/
theorem PoolView.take_give {pool : PoolView} (unrefused : pool.refusal = none) (page : UInt64) :
    ∃ pool', (pool.give page).take = (.ok page, pool') := by
  refine ⟨{ pool with requests := pool.requests + 1, released := page :: pool.released }, ?_⟩
  rw [take]
  dsimp only [give]
  rw [unrefused]
  rfl

namespace CacheView

variable {size : PageSize} {view view' : CacheView} {object : UInt64} {pool pool' : PoolView}

/-- An object is served from the slab in front, or from a page that the pool hands out. -/
theorem exists_of_run_alloc (sound : view.Sound size)
    (run : (view.alloc size).run pool = ((.ok object, view'), pool')) :
    (∃ base slot free rest, view.room = ⟨base, slot :: free⟩ :: rest ∧
      view.serve size = (object, view') ∧ pool' = pool) ∨
    view.room = [] ∧ ∃ page, pool.take = (.ok page, pool') ∧
      (view.openSlab size page).serve size = (object, view') := by
  unfold alloc at run
  rcases room : view.room with _ | ⟨⟨base, free⟩, rest⟩
  · rw [room] at run
    right
    rcases answered : pool.take with ⟨answer, rest⟩
    rw [Plan.run, answered] at run
    cases answer with
    | error error => cases run
    | ok page =>
      cases run
      exact ⟨rfl, page, rfl, rfl⟩
  · rw [room] at run
    have listed : SlabView.mk base free ∈ view.room := room ▸ List.mem_cons_self
    obtain ⟨slot, free, rfl⟩ := List.exists_cons_of_ne_nil (sound.free _ listed)
    cases run
    exact .inl ⟨base, slot, free, rest, rfl, rfl, rfl⟩

/-- **An object that is served and put back leaves no trace.**  One page is taken at most. -/
theorem free_reverts (sound : view.Sound size) (regular : view.Regular size)
    (opened : ∀ page ∈ pool.free, (view.openSlab size page).Regular size)
    (run : (view.alloc size).run pool = ((.ok object, view'), pool')) :
    ∃ pages, pages.length ≤ 1 ∧ (view'.free size object).Reverts view pool pool' pages := by
  rcases exists_of_run_alloc sound run with
    ⟨base, slot, free, rest, first, served, rfl⟩ | ⟨empty, page, taken, served⟩
  · have undone := regular.free_serve sound first
    rw [served] at undone
    refine ⟨[], Nat.zero_le 1, rfl, rfl, rfl, fun later free added =>
      ⟨later, ?_, free, added, rfl⟩⟩
    rw [undone]
    rfl
  · obtain ⟨top, added, released⟩ := PoolView.take_ok taken
    have undone := free_serve_openSlab empty (opened page (top ▸ List.mem_cons_self))
    rw [served] at undone
    refine ⟨[page], le_refl 1, top, added, released, fun later free added' =>
      ⟨later.give page, ?_, ?_, ?_, rfl⟩⟩
    · rw [undone]
      rfl
    · rw [top, ← free]
      rfl
    · exact added'.trans added

/-! ## Putting back and serving -/

namespace Located

variable {front back rest : List SlabView} {free : List UInt64} {slab : SlabView}
  (located : view.Located size object front free back) (regular : view.Regular size)

include located regular

/-- The slab of an object is in front once it is listed, exactly if it was full or in front. -/
theorem front_eq_nil_iff : front = [] ↔ size.pageOf object ∈ view.full ∨
    (view.room.map SlabView.slab).head? = some ⟨size.pageOf object⟩ := by
  have listed := located.listed
  have differ {slab : SlabView} {rest : List SlabView} (split : front = slab :: rest) :
      slab.base ≠ size.pageOf object :=
    located.base_ne regular (List.mem_append_left _ (split ▸ List.mem_cons_self))
  unfold reopen at listed
  split at listed
  · rename_i full
    refine ⟨fun _ => .inl full, fun _ => ?_⟩
    rcases split : front with _ | ⟨slab, rest⟩
    · rfl
    · rw [split] at listed
      exact absurd (congrArg SlabView.base (List.cons.inj listed).1).symm (differ split)
  · rename_i absent
    rw [listed]
    constructor
    · rintro rfl
      exact .inr rfl
    · rintro (full | first)
      · exact absurd full absent
      · rcases split : front with _ | ⟨slab, rest⟩
        · rfl
        · rw [split] at first
          exact absurd (congrArg Slab.base (Option.some.inj first)) (differ split)

/-- No other slab is listed, so the page of the object is opened again, and the first of its
slots is served. -/
theorem serve_openSlab (alone : front ++ back = []) :
    ((((view.returned size object).drop (size.pageOf object)).openSlab size
        (size.pageOf object)).serve size).1 = object ↔ size.slotAt view.objectSize object = 0 := by
  have left := located.room_drop_returned regular
  rw [alone] at left
  have sizes : ((view.returned size object).drop (size.pageOf object)).objectSize =
      view.objectSize := objectSize_returned
  have aligned := size.pageOf_aligned object
  rw [openSlab_serve (sizes ▸ regular.fits) left, sizes]
  constructor
  · intro same
    exact (regular.fits.slotAddress_inj aligned aligned located.inRange regular.fits.zero_inRange
      (located.address.trans same.symm)).2
  · intro start
    rw [← start, located.address]

variable (sound : view.Sound size)

include sound

/-- Another listed slab serves another object. -/
theorem alloc_other (mem : slab ∈ front ++ back) (sizes : view'.objectSize = view.objectSize)
    (first : view'.room = slab :: rest) :
    ∃ other view'', view'.alloc size = .done (.ok other, view'') ∧ other ≠ object := by
  have listed := located.mem_room regular mem
  have differ := located.base_ne regular mem
  obtain ⟨base, slots⟩ := slab
  obtain ⟨slot, slots, rfl⟩ := List.exists_cons_of_ne_nil (sound.free _ listed)
  have held : SlabView.mk base (slot :: slots) ∈ view.slabs := List.mem_append_left _ listed
  have page := regular.fits.pageOf_slotAddress (regular.aligned _ (mem_pages held))
    ((regular.slabs _ held).inRange slot List.mem_cons_self)
  have address : (view'.serve size).1 = size.slotAddress view.objectSize base slot := by
    simp only [serve, first, sizes]
  refine ⟨(view'.serve size).1, (view'.serve size).2, ?_, fun same => differ ?_⟩
  · rw [alloc, first]
  · rw [← same, address, page]

/-- The slab of the object stays and is in front, so the object is served again. -/
theorem alloc_returned (first : front = []) : ∃ view'',
    (view.returned size object).alloc size = .done (.ok object, view'') ∧
      view''.objectSize = view.objectSize ∧ view''.room = view.room ∧
      view''.full.Perm view.full := by
  subst first
  have listed := located.listed
  have room : (view.returned size object).room =
      ⟨size.pageOf object, size.slotAt view.objectSize object :: free⟩ :: back :=
    located.room_returned regular
  refine ⟨((view.returned size object).serve size).2, ?_, ?_⟩
  · rw [alloc, serve, room]
    dsimp only
    rw [objectSize_returned, located.address]
  rw [serve, room]
  by_cases full : size.pageOf object ∈ view.full
  · obtain rfl := (located.mem_full_iff regular sound.free).1 full
    have others : (view.returned size object).full = view.full.erase (size.pageOf object) := by
      rw [returned, reopen, if_pos full]
      rfl
    rw [reopen, if_pos full] at listed
    refine ⟨objectSize_returned, (List.cons.inj listed).2.symm, ?_⟩
    show (size.pageOf object :: (view.returned size object).full).Perm view.full
    rw [others]
    exact (List.perm_cons_erase full).symm
  · have some : free ≠ [] := fun none => full ((located.mem_full_iff regular sound.free).2 none)
    obtain ⟨slot, free, rfl⟩ := List.exists_cons_of_ne_nil some
    have others : (view.returned size object).full = view.full := by
      rw [returned, reopen, if_neg full]
      rfl
    rw [reopen, if_neg full] at listed
    exact ⟨objectSize_returned, listed.symm, List.Perm.of_eq others⟩

/-- The slab of the object stays.  The object is served again exactly if its slab is in front. -/
theorem alloc_kept : ∃ other view'',
    (view.returned size object).alloc size = .done (.ok other, view'') ∧
      (other = object ↔ front = []) ∧
      (front = [] → view''.objectSize = view.objectSize ∧ view''.room = view.room ∧
        view''.full.Perm view.full) := by
  by_cases first : front = []
  · obtain ⟨view'', served, kept⟩ := located.alloc_returned regular sound first
    exact ⟨object, view'', served, ⟨fun _ => first, fun _ => rfl⟩, fun _ => kept⟩
  · obtain ⟨slab, rest, split⟩ := List.exists_cons_of_ne_nil first
    have room := located.room_returned regular
    rw [split] at room
    obtain ⟨other, view'', served, differ⟩ := located.alloc_other regular sound
      (split ▸ List.mem_cons_self) objectSize_returned room
    exact ⟨other, view'', served, ⟨fun same => absurd same differ, fun none => absurd none first⟩,
      fun none => absurd none first⟩

/-- The page of the object was given back, and is on top of the pool.  The object is served again
exactly if no other slab is listed and it was in the first slot. -/
theorem alloc_dropped (unrefused : pool.refusal = none) : ∃ other view'' pool'',
    (((view.returned size object).drop (size.pageOf object)).alloc size).run
        (pool.give (size.pageOf object)) = ((.ok other, view''), pool'') ∧
      (other = object ↔ front ++ back = [] ∧ size.slotAt view.objectSize object = 0) := by
  have left := located.room_drop_returned regular
  rcases others : front ++ back with _ | ⟨slab, rest⟩
  · obtain ⟨pool'', taken⟩ := PoolView.take_give unrefused (size.pageOf object)
    have start := located.serve_openSlab regular others
    rcases served : (((view.returned size object).drop (size.pageOf object)).openSlab size
      (size.pageOf object)).serve size with ⟨other, view''⟩
    rw [served] at start
    refine ⟨other, view'', pool'', ?_, ?_⟩
    · rw [alloc, left, others, Plan.run, taken]
      dsimp only
      rw [served]
      rfl
    · simp only [start, true_and]
  · have next : ((view.returned size object).drop (size.pageOf object)).room = slab :: rest :=
      left.trans others
    have kept : ((view.returned size object).drop (size.pageOf object)).objectSize =
        view.objectSize := objectSize_returned
    obtain ⟨other, view'', served, differ⟩ := located.alloc_other regular sound
      (others ▸ List.mem_cons_self) kept next
    refine ⟨other, view'', pool.give (size.pageOf object), ?_, ?_⟩
    · rw [served]
      rfl
    · simp only [differ, reduceCtorEq, false_and]

/-- **When an object that was put back is served next.** -/
theorem free_alloc (unrefused : pool.refusal = none) : ∃ other view'' pool'',
    (view.free size object >>= fun freed => freed.alloc size).run pool =
        ((.ok other, view''), pool'') ∧
      (other = object ↔
        ¬ (view.returned size object).Emptied size (size.pageOf object) ∧ front = [] ∨
        (view.returned size object).Emptied size (size.pageOf object) ∧ front ++ back = [] ∧
          size.slotAt view.objectSize object = 0) ∧
      (¬ (view.returned size object).Emptied size (size.pageOf object) → front = [] →
        view''.objectSize = view.objectSize ∧ view''.room = view.room ∧
          view''.full.Perm view.full) := by
  rw [Plan.run_bind]
  by_cases emptied : (view.returned size object).Emptied size (size.pageOf object)
  · have freed : (view.free size object).run pool =
        ((view.returned size object).drop (size.pageOf object),
          pool.give (size.pageOf object)) := by
      rw [CacheView.free, if_pos emptied]
      rfl
    rw [freed]
    obtain ⟨other, view'', pool'', served, same⟩ := located.alloc_dropped regular sound unrefused
    refine ⟨other, view'', pool'', served, ?_, fun some => absurd emptied some⟩
    simp only [same, emptied, not_true, false_and, false_or, true_and]
  · have freed : (view.free size object).run pool = (view.returned size object, pool) := by
      rw [CacheView.free, if_neg emptied]
      rfl
    rw [freed]
    obtain ⟨other, view'', served, same, kept⟩ := located.alloc_kept regular sound
    refine ⟨other, view'', pool, ?_, ?_, fun _ => kept⟩
    · rw [served]
      rfl
    · simp only [same, emptied, not_false_eq_true, true_and, false_and, or_false]

end Located

end CacheView

end SlabHeap
