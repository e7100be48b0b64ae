import SlabHeap.Slab.SpaceList
import SlabHeap.Proofs.SlabRefinement

/-!
# Space lists are lists

On a list that ends (`SpaceList.Holds`), pushing, popping and removing are the
operations on the list of its slabs: `pushFront_holds`, `popFront_holds` and
`remove_holds`.  The slabs have to be `Spread`: none is at address zero, which a
link cannot express, and no two links share a byte.

All that an operation writes are links of slabs on the list or of the slab that
is pushed.  `Slab.Relinks` collects such writes, so that what does not depend on
links is carried over them in one step.
-/

namespace SlabHeap

/-- Different words that are not zero are fewer than all words. -/
theorem length_lt_of_nodup {words : List UInt64} (nodup : words.Nodup)
    (nonzero : ∀ word ∈ words, word ≠ 0) : words.length < 2 ^ 64 := by
  have all : (0 :: words).Nodup := List.nodup_cons.2 ⟨fun mem => nonzero 0 mem rfl, nodup⟩
  have numbers : ((0 :: words).map UInt64.toNat).Nodup :=
    all.map fun a b same => UInt64.toNat_inj.1 same
  have below : (0 :: words).map UInt64.toNat ⊆ List.range (2 ^ 64) := by
    intro number mem
    obtain ⟨word, _, rfl⟩ := List.mem_map.1 mem
    exact List.mem_range.2 word.toNat_lt
  have fewer := numbers.length_le_of_subset below
  simp only [List.length_map, List.length_cons, List.length_range] at fewer
  exact fewer

/-! ## Chains with an element taken out -/

namespace Chain

variable {α : Type} {next next' : α → Option α} {link : Option α} {before target : α}
  {front back : List α}

theorem mem_of_link (h : Chain next (some target) front) : target ∈ front :=
  List.mem_of_head? h.head?_eq.symm

/-- Links lead to elements. -/
theorem mem_of_next (h : Chain next link front) (mem : before ∈ front)
    (linked : next before = some target) : target ∈ front := by
  induction front generalizing link with
  | nil => cases mem
  | cons a rest ih =>
    obtain ⟨_, tail⟩ := h
    rcases List.mem_cons.1 mem with rfl | later
    · rw [linked] at tail
      exact .tail _ tail.mem_of_link
    · exact .tail _ (ih tail later)

/-- A chain does not begin with an element that stands behind another. -/
theorem link_ne (h : Chain next link (front ++ before :: target :: back)) :
    link ≠ some target := by
  have nodup := h.nodup
  rw [h.head?_eq]
  cases front with
  | nil =>
    rintro ⟨⟩
    exact (List.nodup_cons.1 nodup).1 List.mem_cons_self
  | cons a front =>
    rintro ⟨⟩
    exact (List.nodup_cons.1 nodup).1 (List.mem_append_right _ (.tail _ List.mem_cons_self))

/-- Linking around an element takes it out of a chain. -/
theorem splice (h : Chain next link (front ++ before :: target :: back))
    (around : next' before = next target) (sameFront : ∀ a ∈ front, next' a = next a)
    (sameBack : ∀ a ∈ back, next' a = next a) : Chain next' link (front ++ before :: back) := by
  induction front generalizing link with
  | nil =>
    obtain ⟨rfl, _, tail⟩ := h
    refine ⟨rfl, ?_⟩
    rw [around]
    exact tail.congr sameBack
  | cons a front ih =>
    obtain ⟨rfl, tail⟩ := h
    refine ⟨rfl, ?_⟩
    rw [sameFront a List.mem_cons_self]
    exact ih tail fun b mem => sameFront b (.tail a mem)

/-- The element before another one is the first that is linked to it. -/
theorem find?_before [DecidableEq α] (h : Chain next link (front ++ before :: target :: back)) :
    (front ++ before :: target :: back).find? (fun a => next a == some target) = some before := by
  induction front generalizing link with
  | nil =>
    obtain ⟨_, linked, _⟩ := h
    rw [List.nil_append, List.find?_cons, linked, beq_self_eq_true]
  | cons a front ih =>
    obtain ⟨_, tail⟩ := h
    rw [List.cons_append, List.find?_cons, beq_eq_false_iff_ne.2 tail.link_ne]
    exact ih tail

end Chain

namespace Slab

variable {slab other : Slab} {slabs : List Slab} {memory memory' memory'' : Memory}

theorem next_setNext {next : Option Slab} (nonzero : next ≠ some ⟨0⟩) :
    slab.next (slab.setNext memory next) = next := by
  have header := congrArg SlabHeader.next (slab.header_setNext memory nonzero)
  rw [next_header] at header
  exact header

theorem next_setNext_of_disjoint (next : Option Slab)
    (apart : Disjoint (Memory.run slab.base 8) (Memory.run other.base 8)) :
    other.next (slab.setNext memory next) = other.next memory :=
  next_congr ((eqOn_setNext slab memory next).mono apart.symm.subset_compl_right)

/-- No slab is at address zero, and no two links share a byte. -/
structure Spread (slabs : List Slab) : Prop where
  nonzero : ∀ slab ∈ slabs, slab.base ≠ 0
  apart : ∀ slab ∈ slabs, ∀ other ∈ slabs, slab ≠ other →
    Disjoint (Memory.run slab.base 8) (Memory.run other.base 8)

/-- Slabs that start at different pages are spread. -/
theorem Spread.of_aligned {size : PageSize} (wide : 8 ≤ size.length)
    (nonzero : ∀ slab ∈ slabs, slab.base ≠ 0)
    (aligned : ∀ slab ∈ slabs, size.Aligned slab.base) : Spread slabs := by
  refine ⟨nonzero, fun slab mem other mem' differ => ?_⟩
  have bases : slab.base ≠ other.base := fun same => differ (congrArg Slab.mk same)
  exact ((aligned slab mem).disjoint_page (aligned other mem') bases).mono
    (Memory.run_mono wide) (Memory.run_mono wide)

theorem Spread.subset {fewer : List Slab} (spread : Spread slabs) (le : fewer ⊆ slabs) :
    Spread fewer :=
  ⟨fun slab mem => spread.nonzero slab (le mem),
    fun slab mem other mem' => spread.apart slab (le mem) other (le mem')⟩

theorem Spread.tail (spread : Spread (slab :: slabs)) : Spread slabs :=
  spread.subset (List.subset_cons_self slab slabs)

/-- Slabs that are spread are fewer than all words. -/
theorem Spread.length_lt (spread : Spread slabs) (nodup : slabs.Nodup) :
    slabs.length < 2 ^ 64 := by
  have bases : (slabs.map base).Nodup := nodup.map fun a b same => by
    cases a
    cases b
    exact congrArg Slab.mk same
  have few := length_lt_of_nodup bases fun word mem => by
    obtain ⟨slab, onList, rfl⟩ := List.mem_map.1 mem
    exact spread.nonzero slab onList
  rwa [List.length_map] at few

/-- One memory comes from another by linking some of the slabs anew. -/
inductive Relinks (slabs : List Slab) (memory : Memory) : Memory → Prop
  | refl : Relinks slabs memory memory
  | link {memory' : Memory} (slab : Slab) (next : Option Slab) :
      Relinks slabs memory memory' → slab ∈ slabs → next ≠ some ⟨0⟩ →
      Relinks slabs memory (slab.setNext memory' next)

theorem Relinks.mono {more : List Slab} (h : Relinks slabs memory memory') (le : slabs ⊆ more) :
    Relinks more memory memory' := by
  induction h with
  | refl => exact .refl
  | link slab next _ mem nonzero ih => exact .link slab next ih (le mem) nonzero

/-- Linking slabs anew changes their links only. -/
theorem Relinks.eqOn (h : Relinks slabs memory memory') {region : Set UInt64}
    (links : ∀ slab ∈ slabs, Memory.run slab.base 8 ⊆ region) :
    Set.EqOn memory'.byte memory.byte regionᶜ := by
  induction h with
  | refl => exact fun _ _ => rfl
  | link slab next _ mem _ ih =>
    exact ((eqOn_setNext slab _ next).mono (Set.compl_subset_compl.2 (links slab mem))).trans ih

end Slab

/-- Linking slabs anew leaves what is known of the slots of a slab, if it is one
of them or does not share a byte with their links. -/
theorem SlabView.Describes.relink {size : PageSize} {objectSize : UInt64} {view : SlabView}
    {slabs : List Slab} {memory memory' : Memory} (h : view.Describes size objectSize memory)
    (fits : size.Fits objectSize) (sound : view.Sound size objectSize)
    (relinks : Slab.Relinks slabs memory memory')
    (apart : ∀ slab ∈ slabs, slab = view.slab ∨
      Disjoint (Memory.run slab.base 8) (size.notes objectSize view.base)) :
    view.Describes size objectSize memory' := by
  induction relinks with
  | refl => exact h
  | link slab next _ mem nonzero ih =>
    rcases apart slab mem with same | away
    · rw [same]
      exact ih.setNext fits sound nonzero
    · exact ih.congr fits sound
        ((Slab.eqOn_setNext slab _ next).mono away.symm.subset_compl_right)

namespace SpaceList

variable {list : SpaceList} {memory : Memory} {slab before target : Slab}
  {slabs front back : List Slab}

theorem Holds.head_ne_zero (h : list.Holds memory slabs) (spread : Slab.Spread slabs) :
    list.head ≠ some ⟨0⟩ := by
  intro zero
  have chain := h.1
  rw [zero] at chain
  exact spread.nonzero ⟨0⟩ chain.mem_of_link rfl

theorem Holds.next_ne_zero (h : list.Holds memory slabs) (spread : Slab.Spread slabs)
    (mem : target ∈ slabs) : target.next memory ≠ some ⟨0⟩ :=
  fun zero => spread.nonzero ⟨0⟩ (h.1.mem_of_next mem zero) rfl

/-- A list that has a slab can count down. -/
theorem Holds.counts_down (h : list.Holds memory slabs) (mem : target ∈ slabs) :
    checkedSub list.length 1 = .ok (list.length - 1) ∧
      (list.length - 1).toNat = (slabs.erase target).length := by
  obtain ⟨counted, fewer⟩ := checkedSub_one (h.2 ▸ List.length_pos_of_mem mem)
  refine ⟨counted, ?_⟩
  rw [List.length_erase_of_mem mem, ← h.2, ← fewer]
  rfl

/-- The slab pushed is the first one. -/
theorem pushFront_holds (h : list.Holds memory slabs) (spread : Slab.Spread (slab :: slabs))
    (fresh : slab ∉ slabs) :
    ∃ list' memory', list.pushFront memory slab = .ok (list', memory') ∧
      list'.Holds memory' (slab :: slabs) ∧ Slab.Relinks [slab] memory memory' := by
  have nonzero := h.head_ne_zero spread.tail
  have nodup : (slab :: slabs).Nodup := List.nodup_cons.2 ⟨fresh, h.nodup⟩
  have few := spread.length_lt nodup
  obtain ⟨chain, count⟩ := h
  rw [List.length_cons, ← count] at few
  obtain ⟨counted, longer⟩ := checkedAdd_one few
  refine ⟨{ head := some slab, length := list.length + 1 }, slab.setNext memory list.head,
    ?_, ⟨⟨rfl, ?_⟩, ?_⟩, .link slab list.head .refl List.mem_cons_self nonzero⟩
  · simp only [pushFront, counted, bind, Except.bind, pure, Except.pure]
  · show Chain _ (slab.next (slab.setNext memory list.head)) slabs
    rw [Slab.next_setNext nonzero]
    refine chain.congr fun other mem => ?_
    have differ : slab ≠ other := fun same => fresh (same ▸ mem)
    exact Slab.next_setNext_of_disjoint _
      (spread.apart slab List.mem_cons_self other (.tail _ mem) differ)
  · rw [longer, count, List.length_cons]

theorem popFront_eq (memory : Memory) (first : list.head = some slab) {length : UInt64}
    (counted : checkedSub list.length 1 = .ok length) :
    list.popFront memory =
      .ok ((some slab, { head := slab.next memory, length }), slab.setNext memory none) := by
  unfold popFront
  rw [first]
  simp only [counted]
  simp only [bind, Except.bind, pure, Except.pure]

/-- The slab popped was the first one. -/
theorem popFront_holds (h : list.Holds memory (slab :: slabs))
    (spread : Slab.Spread (slab :: slabs)) :
    ∃ list' memory', list.popFront memory = .ok ((some slab, list'), memory') ∧
      list'.Holds memory' slabs ∧ Slab.Relinks [slab] memory memory' := by
  have fresh := (List.nodup_cons.1 h.nodup).1
  obtain ⟨counted, shorter⟩ := h.counts_down List.mem_cons_self
  rw [List.erase_cons_head] at shorter
  obtain ⟨first, chain⟩ := h.1
  refine ⟨{ head := slab.next memory, length := list.length - 1 }, slab.setNext memory none,
    ?_, ⟨?_, shorter⟩, .link slab none .refl List.mem_cons_self nofun⟩
  · exact popFront_eq memory first counted
  · dsimp only
    refine chain.congr fun other mem => ?_
    have differ : slab ≠ other := fun same => fresh (same ▸ mem)
    exact Slab.next_setNext_of_disjoint _
      (spread.apart slab List.mem_cons_self other (.tail _ mem) differ)

/-- Taking out the first slab is popping it. -/
theorem remove_of_popFront {list' : SpaceList} {memory' : Memory}
    (first : list.head = some target)
    (popped : list.popFront memory = .ok ((some target, list'), memory')) :
    list.remove memory target = .ok ((true, list'), memory') := by
  simp only [remove, if_pos first, popped, bind, Except.bind, pure, Except.pure]

theorem remove_eq_behind (h : list.Holds memory (front ++ before :: target :: back)) :
    list.remove memory target = .ok ((true, { list with length := list.length - 1 }),
      target.setNext (before.setNext memory (target.next memory)) none) := by
  have mem : target ∈ front ++ before :: target :: back :=
    List.mem_append_right _ (.tail _ List.mem_cons_self)
  have found := h.before?_eq target
  rw [h.1.find?_before] at found
  unfold remove
  rw [if_neg h.1.link_ne, found]
  simp only [(h.counts_down mem).1]
  simp only [bind, Except.bind, pure, Except.pure]

/-- The link around a slab takes it out from behind another one. -/
theorem remove_behind (h : list.Holds memory (front ++ before :: target :: back))
    (spread : Slab.Spread (front ++ before :: target :: back)) :
    ∃ list' memory', list.remove memory target = .ok ((true, list'), memory') ∧
      list'.Holds memory' (front ++ before :: back) ∧
      Slab.Relinks (front ++ before :: target :: back) memory memory' := by
  have chain := h.1
  have parts := List.nodup_append.1 h.nodup
  have behind := List.nodup_cons.1 parts.2.1
  have further := List.nodup_cons.1 behind.2
  have beforeMem : before ∈ front ++ before :: target :: back :=
    List.mem_append_right _ List.mem_cons_self
  have mem : target ∈ front ++ before :: target :: back :=
    List.mem_append_right _ (.tail _ List.mem_cons_self)
  have nonzero := h.next_ne_zero spread mem
  have differ : before ≠ target := fun same => behind.1 (same ▸ List.mem_cons_self)
  have inFront (slab : Slab) (mem : slab ∈ front) : slab ≠ before ∧ slab ≠ target :=
    ⟨parts.2.2 slab mem before List.mem_cons_self,
      parts.2.2 slab mem target (.tail _ List.mem_cons_self)⟩
  have inBack (slab : Slab) (mem : slab ∈ back) : slab ≠ before ∧ slab ≠ target :=
    ⟨fun same => behind.1 (.tail _ (same ▸ mem)), fun same => further.1 (same ▸ mem)⟩
  -- the links of the other slabs survive both writes
  have kept (slab : Slab) (onList : slab ∈ front ++ before :: target :: back)
      (others : slab ≠ before ∧ slab ≠ target) :
      slab.next (target.setNext (before.setNext memory (target.next memory)) none) =
        slab.next memory := by
    rw [Slab.next_setNext_of_disjoint _ (spread.apart target mem slab onList others.2.symm),
      Slab.next_setNext_of_disjoint _ (spread.apart before beforeMem slab onList others.1.symm)]
  have around : before.next (target.setNext (before.setNext memory (target.next memory)) none) =
      target.next memory := by
    rw [Slab.next_setNext_of_disjoint _ (spread.apart target mem before beforeMem differ.symm),
      Slab.next_setNext nonzero]
  have erased : (front ++ before :: target :: back).erase target = front ++ before :: back := by
    rw [List.erase_append_right _ fun mem => (inFront target mem).2 rfl,
      List.erase_cons_tail (by simpa using differ), List.erase_cons_head]
  have shorter := (h.counts_down mem).2
  rw [erased] at shorter
  refine ⟨_, _, remove_eq_behind h, ⟨?_, shorter⟩,
    .link target none (.link before _ .refl beforeMem nonzero) mem nofun⟩
  exact chain.splice around
    (fun slab mem => kept slab (List.mem_append_left _ mem) (inFront slab mem))
    (fun slab mem => kept slab (List.mem_append_right _ (.tail _ (.tail _ mem)))
      (inBack slab mem))

/-- A slab of the list is found and taken out, wherever it stands. -/
theorem remove_holds (h : list.Holds memory slabs) (spread : Slab.Spread slabs)
    (mem : target ∈ slabs) :
    ∃ list' memory', list.remove memory target = .ok ((true, list'), memory') ∧
      list'.Holds memory' (slabs.erase target) ∧ Slab.Relinks slabs memory memory' := by
  obtain ⟨front, back, absent, rfl, erased⟩ := List.exists_erase_eq mem
  rw [erased]
  rcases List.eq_nil_or_concat front with rfl | ⟨front, before, rfl⟩
  · rw [List.nil_append] at h spread ⊢
    obtain ⟨list', memory', popped, holds, relinks⟩ := popFront_holds h spread
    refine ⟨list', memory', remove_of_popFront h.1.1 popped, holds, relinks.mono ?_⟩
    exact List.cons_subset.2 ⟨List.mem_cons_self, List.nil_subset _⟩
  · rw [List.concat_eq_append, List.append_assoc, List.singleton_append] at h spread ⊢
    rw [List.append_assoc, List.singleton_append]
    exact remove_behind h spread

end SpaceList

end SlabHeap
