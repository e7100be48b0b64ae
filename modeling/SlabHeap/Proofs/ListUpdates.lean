import SlabHeap.Proofs.SpaceLists

/-!
# Updates of space lists

A list of slabs that ends is a sequence, and pushing, popping and taking out are the
operations on the sequence, for any content of memory besides (`SpaceList.Holds.operates`).
A slab that is not on the list is not found, and nothing is written for it.

What is written are links, and few of them: that of the slab pushed, popped or taken out
and, where a slab is taken out from behind another one, the link to it
(`SpaceList.linksAround`).
-/

namespace SlabHeap

namespace SpaceList

/-- The bytes of a slab's own link and of the link to it from the slab before it. -/
def linksAround (slabs : List Slab) (target : Slab) : Set UInt64 :=
  {address | ∃ slab, (slab = target ∨ [slab, target] <:+: slabs) ∧
    address ∈ Memory.run slab.base 8}

/-- A slab was taken off a list, and all that was written are the given bytes. -/
structure Drops (list : SpaceList) (memory : Memory) (slab : Slab) (rest : List Slab)
    (written : Set UInt64) (list' : SpaceList) (memory' : Memory) : Prop where
  /-- The other slabs stay on the list, in their order. -/
  holds : list'.Holds memory' rest
  /-- The list counts one slab less. -/
  length : list'.length.toNat + 1 = list.length.toNat
  /-- The slab is linked to none. -/
  unlinked : memory'.word (slab.fieldAddress .next) = 0
  /-- No other byte changed. -/
  same : Set.EqOn memory'.byte memory.byte writtenᶜ

/-- The operations on a list are those on the sequence of its slabs. -/
structure Operates (list : SpaceList) (memory : Memory) (slabs : List Slab) : Prop where
  /-- A slab that is not on the list is pushed in front, and only its link is written. -/
  push : ∀ slab, slab ∉ slabs → Slab.Spread (slab :: slabs) →
    ∃ list' memory', list.pushFront memory slab = .ok (list', memory') ∧
      list'.Holds memory' (slab :: slabs) ∧
      Set.EqOn memory'.byte memory.byte (Memory.run slab.base 8)ᶜ
  /-- From an empty list nothing is popped, and nothing changes. -/
  popNone : slabs = [] → list.popFront memory = .ok ((none, list), memory)
  /-- From another list the first slab is popped, and only its link is written. -/
  pop : ∀ slab rest, slabs = slab :: rest →
    ∃ list' memory', list.popFront memory = .ok ((some slab, list'), memory') ∧
      list.Drops memory slab rest (Memory.run slab.base 8) list' memory'
  /-- A slab of the list is found and taken out, and only the links around it are written. -/
  remove : ∀ target ∈ slabs,
    ∃ list' memory', list.remove memory target = .ok ((true, list'), memory') ∧
      list.Drops memory target (slabs.erase target) (linksAround slabs target) list' memory'
  /-- A slab that is not on the list is not found, and nothing changes. -/
  removeNone : ∀ target, target ∉ slabs → list.remove memory target = .ok ((false, list), memory)

variable {list : SpaceList} {memory : Memory} {slab before target : Slab}
  {slabs front back : List Slab}

theorem word_setNext_none (slab : Slab) (memory : Memory) :
    (slab.setNext memory none).word (slab.fieldAddress .next) = 0 :=
  Memory.word_setWord_self memory (slab.fieldAddress .next) 0

theorem Holds.toNat_length_erase (h : list.Holds memory slabs) (mem : target ∈ slabs)
    {list' : SpaceList} {memory' : Memory} (h' : list'.Holds memory' (slabs.erase target)) :
    list'.length.toNat + 1 = list.length.toNat := by
  have some := List.length_pos_of_mem mem
  rw [h'.2, h.2, List.length_erase_of_mem mem, Nat.sub_add_cancel some]

theorem pushFront_links (h : list.Holds memory slabs) (spread : Slab.Spread (slab :: slabs))
    (fresh : slab ∉ slabs) :
    ∃ list' memory', list.pushFront memory slab = .ok (list', memory') ∧
      list'.Holds memory' (slab :: slabs) ∧
      Set.EqOn memory'.byte memory.byte (Memory.run slab.base 8)ᶜ := by
  obtain ⟨list', memory', pushed, holds, relinks⟩ := pushFront_holds h spread fresh
  refine ⟨list', memory', pushed, holds, relinks.eqOn fun other mem => ?_⟩
  rw [List.mem_singleton.1 mem]

theorem popFront_drops (h : list.Holds memory (slab :: slabs))
    (spread : Slab.Spread (slab :: slabs)) :
    ∃ list' memory', list.popFront memory = .ok ((some slab, list'), memory') ∧
      list.Drops memory slab slabs (Memory.run slab.base 8) list' memory' := by
  obtain ⟨list', memory', popped, holds, _⟩ := popFront_holds h spread
  have erased : list'.Holds memory' ((slab :: slabs).erase slab) := by
    rwa [List.erase_cons_head]
  have shorter := h.toNat_length_erase List.mem_cons_self erased
  have answer := popFront_eq memory h.1.1 (h.counts_down List.mem_cons_self).1
  obtain ⟨_, rfl⟩ := Prod.mk.inj (Except.ok.inj (answer.symm.trans popped))
  exact ⟨list', _, popped, holds, shorter, word_setNext_none slab memory,
    Slab.eqOn_setNext slab memory none⟩

/-- Linking around a slab writes the two links around it. -/
theorem eqOn_linksAround (memory : Memory) (next : Option Slab)
    (behind : [before, target] <:+: slabs) :
    Set.EqOn (target.setNext (before.setNext memory next) none).byte memory.byte
      (linksAround slabs target)ᶜ := by
  have own : Memory.run target.base 8 ⊆ linksAround slabs target :=
    fun _ inside => ⟨target, .inl rfl, inside⟩
  have front : Memory.run before.base 8 ⊆ linksAround slabs target :=
    fun _ inside => ⟨before, .inr behind, inside⟩
  exact ((Slab.eqOn_setNext target _ none).mono (Set.compl_subset_compl.2 own)).trans
    ((Slab.eqOn_setNext before memory next).mono (Set.compl_subset_compl.2 front))

theorem remove_drops (h : list.Holds memory slabs) (spread : Slab.Spread slabs)
    (mem : target ∈ slabs) :
    ∃ list' memory', list.remove memory target = .ok ((true, list'), memory') ∧
      list.Drops memory target (slabs.erase target) (linksAround slabs target) list' memory' := by
  obtain ⟨list', memory', removed, holds, _⟩ := remove_holds h spread mem
  have shorter := h.toNat_length_erase mem holds
  suffices left : memory'.word (target.fieldAddress .next) = 0 ∧
      Set.EqOn memory'.byte memory.byte (linksAround slabs target)ᶜ from
    ⟨list', memory', removed, holds, shorter, left.1, left.2⟩
  obtain ⟨front, back, rfl⟩ := List.append_of_mem mem
  rcases List.eq_nil_or_concat front with rfl | ⟨front, before, rfl⟩
  case inl =>
    obtain ⟨_, _, popped, drops⟩ := popFront_drops h spread
    rw [remove_of_popFront h.1.1 popped] at removed
    cases removed
    have own : Memory.run target.base 8 ⊆ linksAround ([] ++ target :: back) target :=
      fun _ inside => ⟨target, .inl rfl, inside⟩
    exact ⟨drops.unlinked, drops.same.mono (Set.compl_subset_compl.2 own)⟩
  case inr =>
    have split : front.concat before ++ target :: back = front ++ before :: target :: back := by
      rw [List.concat_eq_append, List.append_assoc, List.singleton_append]
    rw [split] at h ⊢
    rw [remove_eq_behind h] at removed
    cases removed
    have behind : [before, target] <:+: front ++ before :: target :: back :=
      ⟨front, back, by simp⟩
    exact ⟨word_setNext_none target _, eqOn_linksAround memory _ behind⟩

/-- The search for a slab that is not on the list ends without it. -/
theorem remove_of_notMem (h : list.Holds memory slabs) (absent : target ∉ slabs) :
    list.remove memory target = .ok ((false, list), memory) := by
  have first : list.head ≠ some target := by
    intro same
    have chain := h.1
    rw [same] at chain
    exact absent chain.mem_of_link
  have unlinked : slabs.find? (fun slab => slab.next memory == some target) = none := by
    refine List.find?_eq_none.2 fun slab mem linked => absent ?_
    exact h.1.mem_of_next mem (beq_iff_eq.1 linked)
  unfold remove
  rw [if_neg first, h.before?_eq target, unlinked]
  rfl

/-- **Operations on a list are those on a sequence.**  For any content of memory, on a list that
ends, every operation answers, the slabs of the list are as the operation on their sequence has
them, and only links of the slab and of the one before it are written. -/
theorem Holds.operates (h : list.Holds memory slabs) (spread : Slab.Spread slabs) :
    list.Operates memory slabs where
  push _ fresh apart := pushFront_links h apart fresh
  popNone empty := by
    subst empty
    have first : list.head = none := h.1
    unfold popFront
    rw [first]
    rfl
  pop slab rest split := by
    subst split
    exact popFront_drops h spread
  remove _ mem := remove_drops h spread mem
  removeNone _ absent := remove_of_notMem h absent

/-- Three slabs, the links of two of them written over other bytes.  A fourth one is pushed, the
second is taken out from behind the first, and a fifth is not found. -/
theorem Holds.operates_three :
    ∃ (list : SpaceList) (memory : Memory),
      let slabs : List Slab := [⟨0x1000⟩, ⟨0x2000⟩, ⟨0x3000⟩]
      list.Holds memory slabs ∧ Slab.Spread slabs ∧ list.Operates memory slabs ∧
      (⟨0x4000⟩ ∉ slabs ∧ Slab.Spread (⟨0x4000⟩ :: slabs) ∧ ∃ list' memory',
        list.pushFront memory ⟨0x4000⟩ = .ok (list', memory') ∧
          list'.Holds memory' (⟨0x4000⟩ :: slabs)) ∧
      (⟨0x2000⟩ ∈ slabs ∧ ∃ list' memory',
        list.remove memory ⟨0x2000⟩ = .ok ((true, list'), memory') ∧
          list'.Holds memory' [⟨0x1000⟩, ⟨0x3000⟩]) ∧
      (⟨0x5000⟩ ∉ slabs ∧ list.remove memory ⟨0x5000⟩ = .ok ((false, list), memory)) := by
  let memory : Memory := (Slab.mk 0x1000).setNext ((Slab.mk 0x2000).setNext
    (({} : Memory).fill 0x1000 0xff 64) (some ⟨0x3000⟩)) (some ⟨0x2000⟩)
  let list : SpaceList := { head := some ⟨0x1000⟩, length := 3 }
  have first : (Slab.mk 0x1000).next memory = some ⟨0x2000⟩ := by decide +kernel
  have second : (Slab.mk 0x2000).next memory = some ⟨0x3000⟩ := by decide +kernel
  have third : (Slab.mk 0x3000).next memory = none := by decide +kernel
  have holds : list.Holds memory [⟨0x1000⟩, ⟨0x2000⟩, ⟨0x3000⟩] :=
    ⟨⟨rfl, first, second, third⟩, rfl⟩
  have wide : 8 ≤ PageSize.default.length := by decide
  have more : Slab.Spread [⟨0x4000⟩, ⟨0x1000⟩, ⟨0x2000⟩, ⟨0x3000⟩] :=
    .of_aligned wide (by decide) fun slab mem =>
      PageSize.default.aligned_iff.2 (by revert slab; decide)
  have operates := holds.operates more.tail
  obtain ⟨pushed, memory₁, push, holds₁, _⟩ := operates.push ⟨0x4000⟩ (by decide) more
  obtain ⟨removed, memory₂, remove, drops⟩ := operates.remove ⟨0x2000⟩ (by decide)
  exact ⟨list, memory, holds, more.tail, operates,
    ⟨by decide, more, pushed, memory₁, push, holds₁⟩,
    ⟨by decide, removed, memory₂, remove, drops.holds⟩,
    by decide, operates.removeNone ⟨0x5000⟩ (by decide)⟩

end SpaceList

end SlabHeap
