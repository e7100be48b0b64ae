import SlabHeap.Proofs.TableOperations

/-!
# What an update does to the caches of a table

Serving and freeing replace one cache, and creating adds one in front.  A cache keeps
its class when it is replaced, so every class finds what it found before, and a new
cache is found by its own class only.  The lemmas below say so of `TableView.find` and
`TableView.cache`, and what the plans of a table make of it (`Plan.Always`).
-/

namespace SlabHeap

namespace Plan

variable {α β : Type} {holds holds' : α → Prop}

theorem Always.bind {plan : Plan α} {rest : α → Plan β} {after : β → Prop}
    (first : plan.Always holds) (second : ∀ a, holds a → (rest a).Always after) :
    (plan >>= rest).Always after := by
  induction plan with
  | done a => exact second a first
  | take next ih => exact fun answer => ih answer (first answer)
  | give page next ih => exact ih first

theorem Always.mono {plan : Plan α} (h : plan.Always holds) (le : ∀ a, holds a → holds' a) :
    plan.Always holds' := by
  induction plan with
  | done a => exact le a h
  | take next ih => exact fun answer => ih answer (h answer)
  | give page next ih => exact ih h

end Plan

namespace CacheView

variable {size : PageSize} {view view' : CacheView} {gone : Multiset UInt64}
  {addresses : List UInt64}

/-- With fewer pages a cache is still regular. -/
theorem Freed.regular (freed : view.Freed size gone view') (regular : view.Regular size) :
    view'.Regular size :=
  freed.sound.regular (freed.objectSize ▸ regular.fits)
    (Multiset.nodup_of_le freed.pages regular.nodup)
    (fun page held => regular.aligned page (Multiset.mem_of_le freed.pages held))
    (fun page held => regular.nonzero page (Multiset.mem_of_le freed.pages held))

/-- Freeing several objects takes all of them away. -/
theorem frees_always (sound : view.Sound size) (regular : view.slabs ≠ [] → view.Regular size)
    (stored : (addresses : Multiset UInt64) ≤ view.objects size) :
    (addresses.foldlM (CacheView.free size) view).Always (view.Freed size addresses) := by
  induction addresses generalizing view with
  | nil => exact .refl sound
  | cons address rest ih =>
    rw [← Multiset.cons_coe] at stored
    have mem := Multiset.mem_of_le stored (Multiset.mem_cons_self address _)
    have regular := regular (slabs_ne_nil_of_object mem)
    rw [List.foldlM_cons]
    refine (free_always regular sound mem).bind fun view' freed => ?_
    rw [freed.objects, Multiset.singleton_add, Multiset.cons_le_cons_iff] at stored
    refine (ih freed.sound (fun _ => freed.regular regular) stored).mono fun _ freed' => ?_
    exact freed.trans freed'

end CacheView

namespace TableView

variable {size : PageSize} {view : TableView} {ref other : CacheRef} {cache : CacheView}
  {stored : StoredView} {cls : SizeClass} {storage object : UInt64}

/-- Every cache of a table is one that a reference is to. -/
theorem exists_has_of_mem (nodup : view.addresses.Nodup) (mem : cache ∈ view.caches) :
    ∃ ref, view.Has ref ∧ view.cache ref = cache := by
  cases mem with
  | head => exact ⟨.bootstrap, trivial, rfl⟩
  | tail _ later =>
    obtain ⟨stored, held, rfl⟩ := List.mem_map.1 later
    obtain ⟨_, _, _, same, _⟩ := exists_split nodup held
    exact ⟨.stored stored.address, List.mem_map_of_mem held, same⟩

/-! ## Replacing a cache -/

section Replace

variable (nodup : view.addresses.Nodup) (has : view.Has ref)

include nodup has

theorem cache_setCache : (view.setCache ref cache).cache ref = cache := by
  cases ref with
  | bootstrap => rfl
  | stored address =>
    obtain ⟨stored, mem, rfl⟩ := List.mem_map.1 has
    obtain ⟨front, back, split, _, replaced⟩ := exists_split nodup mem
    obtain ⟨rest, focus, _⟩ := exists_focus_stored nodup mem
    have kept := focus.addresses cache
    rw [replaced] at kept ⊢
    have mem' : { stored with view := cache } ∈ ({ view with
        stored := front ++ { stored with view := cache } :: back } : TableView).stored :=
      List.mem_append_right _ List.mem_cons_self
    obtain ⟨_, _, _, found, _⟩ := exists_split (kept ▸ nodup) mem'
    exact found

theorem cache_setCache_of_ne (differ : other ≠ ref) :
    (view.setCache ref cache).cache other = view.cache other := by
  cases ref with
  | bootstrap =>
    cases other with
    | bootstrap => exact absurd rfl differ
    | stored address => rfl
  | stored address =>
    obtain ⟨stored, mem, rfl⟩ := List.mem_map.1 has
    obtain ⟨front, back, split, _, replaced⟩ := exists_split nodup mem
    rw [replaced]
    cases other with
    | bootstrap => rfl
    | stored address =>
      have away : ¬ stored.address = address := fun same => differ (congrArg _ same.symm)
      simp only [TableView.cache, split, List.find?_append, List.find?_cons, decide_eq_false away]

/-- A cache that keeps its class is found as before. -/
theorem find_setCache (sizes : cache.objectSize = (view.cache ref).objectSize) :
    (view.setCache ref cache).find cls = view.find cls := by
  cases ref with
  | bootstrap => rfl
  | stored address =>
    obtain ⟨stored, mem, rfl⟩ := List.mem_map.1 has
    obtain ⟨front, back, split, found, replaced⟩ := exists_split nodup mem
    rw [found] at sizes
    rw [replaced, find, find, split]
    simp only [List.find?_append, List.find?_cons, sizes]
    split
    · rfl
    · cases front.find? (·.view.objectSize = cls.size) with
      | some _ => rfl
      | none => cases decide (stored.view.objectSize = cls.size) <;> rfl

theorem has_setCache : (view.setCache ref cache).Has other ↔ view.Has other := by
  obtain ⟨rest, focus⟩ := exists_focus nodup has
  cases other with
  | bootstrap => exact Iff.rfl
  | stored address => rw [Has, Has, focus.addresses]

theorem objectSize_setCache (sizes : cache.objectSize = (view.cache ref).objectSize) :
    ((view.setCache ref cache).cache other).objectSize = (view.cache other).objectSize := by
  by_cases same : other = ref
  · rw [same, cache_setCache nodup has, sizes]
  · rw [cache_setCache_of_ne nodup has same]

/-- Caches that keep their classes are listed in the same order. -/
theorem order_setCache (sizes : cache.objectSize = (view.cache ref).objectSize) :
    (view.setCache ref cache).order = view.order := by
  cases ref with
  | bootstrap => rfl
  | stored address =>
    obtain ⟨stored, mem, rfl⟩ := List.mem_map.1 has
    obtain ⟨front, back, split, found, replaced⟩ := exists_split nodup mem
    rw [found] at sizes
    rw [replaced, order, order]
    refine List.flatMap_congr fun b _ => ?_
    rw [bucket, bucket, split]
    simp only [List.filter_append, List.filter_cons, sizes]
    split <;> simp only [List.map_append, List.map_cons]

end Replace

/-! ## Adding a cache -/

theorem has_addCache {bootstrap : CacheView} :
    (view.addCache cls storage bootstrap).Has ref ↔ ref = .stored storage ∨ view.Has ref := by
  cases ref with
  | bootstrap => exact ⟨fun _ => .inr trivial, fun _ => trivial⟩
  | stored address =>
    rw [CacheRef.stored.injEq]
    exact List.mem_cons

theorem cache_addCache_self {bootstrap : CacheView} :
    (view.addCache cls storage bootstrap).cache (.stored storage) =
      { objectSize := cls.size } := by
  simp only [TableView.cache, addCache, List.find?_cons, decide_true, Option.map_some,
    Option.getD_some]

theorem cache_addCache_of_ne {bootstrap : CacheView} {address : UInt64}
    (differ : address ≠ storage) :
    (view.addCache cls storage bootstrap).cache (.stored address) =
      view.cache (.stored address) := by
  simp only [TableView.cache, addCache, List.find?_cons, decide_eq_false differ.symm]

/-- A new cache is found by its own class. -/
theorem find_addCache {bootstrap : CacheView} {cls' : SizeClass} (other : cls ≠ bootstrapClass) :
    (view.addCache cls storage bootstrap).find cls' =
      if cls' = cls then some (.stored storage) else view.find cls' := by
  by_cases same : cls' = cls
  · subst same
    simp only [find, addCache, if_neg other, List.find?_cons, decide_true, if_true, Option.map_some]
  · have sizes : ¬ cls.size = cls'.size := fun sizes => same (SizeClass.eq_of_size sizes.symm)
    simp only [find, addCache, List.find?_cons, decide_eq_false sizes, if_neg same]
    rfl

/-! ## Plans -/

/-- What serving does to the table, if this is what it does to the cache. -/
theorem allocFrom_always {holds : Except AllocError UInt64 → CacheView → Prop}
    (alloc : ((view.cache ref).alloc size).Always fun result => holds result.1 result.2) :
    (view.allocFrom size ref).Always fun answer =>
      ∃ cache, answer.2 = view.setCache ref cache ∧ holds answer.1 cache :=
  alloc.bind fun _ held => ⟨_, rfl, held⟩

/-- What freeing does to the table. -/
theorem freeTo_always (regular : (view.cache ref).Regular size)
    (sound : (view.cache ref).Sound size) (mem : object ∈ (view.cache ref).objects size) :
    (view.freeTo size ref object).Always fun view' =>
      ∃ cache, view' = view.setCache ref cache ∧ (view.cache ref).Freed size {object} cache :=
  (CacheView.free_always regular sound mem).bind fun _ freed => ⟨_, rfl, freed⟩

/-- An object of a user is put back into the cache of its size. -/
theorem Sound.free_eq {block : Block} (sound : view.Sound size) (regular : view.Regular size)
    (registered : view.registered = true) (mem : block ∈ view.users size) :
    ∃ ref, view.Has ref ∧ (view.cache ref).objectSize = block.size ∧
      view.cache ref ∈ view.caches ∧ block.address ∈ (view.cache ref).objects size ∧
      view.free size block.address = view.freeTo size ref block.address := by
  obtain ⟨cache, held, sizes, object⟩ := sound.exists_cache_of_users regular mem
  have own := sound.regular_of_mem regular held (CacheView.slabs_ne_nil_of_object object)
  have rounded : block.size % objectAlign = 0 := sizes ▸ sound.rounded cache held
  have named : (SizeClass.mk block.size rounded).size = cache.objectSize := sizes.symm
  obtain ⟨ref, found, has, rfl⟩ := sound.find_of_mem regular registered held named
  have holder := sound.holder_eq_find regular held (own.pageOf_mem object) named
  refine ⟨ref, has, sizes, held, object, ?_⟩
  rw [TableView.free, holder, found]

/-- What creating does to the table. -/
theorem create_always {holds : Except AllocError UInt64 → CacheView → Prop}
    (alloc : (view.bootstrap.alloc size).Always fun result => holds result.1 result.2) :
    (view.create size cls).Always fun answer =>
      (∃ error, answer = (.error error, view)) ∨
        ∃ storage bootstrap, view.registered = true ∧
          answer = (.ok (.stored storage), view.addCache cls storage bootstrap) ∧
          holds (.ok storage) bootstrap := by
  rw [create]
  split
  · rename_i registered
    refine alloc.bind ?_
    rintro ⟨answer, bootstrap⟩ held
    cases answer with
    | error error => exact .inl ⟨error, rfl⟩
    | ok storage => exact .inr ⟨storage, bootstrap, registered, rfl, held⟩
  · exact .inl ⟨_, rfl⟩

/-- What finding or creating does to the table. -/
theorem findOrCreate_always {holds : Except AllocError UInt64 → CacheView → Prop}
    (alloc : (view.bootstrap.alloc size).Always fun result => holds result.1 result.2) :
    (view.findOrCreate size cls).Always fun answer =>
      (∃ ref, view.find cls = some ref ∧ answer = (.ok ref, view)) ∨
        view.find cls = none ∧ ((∃ error, answer = (.error error, view)) ∨
          ∃ storage bootstrap, view.registered = true ∧
            answer = (.ok (.stored storage), view.addCache cls storage bootstrap) ∧
            holds (.ok storage) bootstrap) := by
  rw [findOrCreate]
  cases found : view.find cls with
  | some ref => exact .inl ⟨ref, rfl, rfl⟩
  | none => exact (create_always alloc).mono fun _ created => .inr ⟨rfl, created⟩

/-- What dropping all caches does to the table. -/
theorem reset_always (sound : view.Sound size) (regular : view.Regular size) :
    (view.reset size).Always fun view' => ∃ bootstrap, view' = { bootstrap } ∧
      view.bootstrap.Freed size view.order bootstrap := by
  have own : view.bootstrap ∈ view.caches := List.mem_cons_self
  have stored : (view.order : Multiset UInt64) ≤ view.bootstrap.objects size := by
    rw [Multiset.coe_eq_coe.2 view.order_perm]
    exact sound.storages
  exact (CacheView.frees_always (sound.caches _ own) (sound.regular_of_mem regular own)
    stored).bind fun bootstrap freed => ⟨bootstrap, rfl, freed⟩

end TableView

end SlabHeap
