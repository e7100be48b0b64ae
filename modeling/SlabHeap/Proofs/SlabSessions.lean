import SlabHeap.Proofs.SlotStack

/-!
# Slabs in use

A slab is carved and then asked for slots and given slots back, one request after another.  A
`SlotLedger` says what becomes of the slots, from the requests alone: at first all are free, in
order, the one on top is taken next, and one that comes back goes on top.

A slab keeps this ledger in the bytes of its page.  Each request keeps it (`Slab.Stacks.serve`),
so every reachable slab does (`Slab.carve_keeps`).  Only carving depends on where the page is.
Slots of no bytes may begin where the address space ends.  Slot 0 has no address then, and carving
stops before it writes anything (`Slab.carve_beyond`).
-/

namespace SlabHeap

/-! ## Requests -/

/-- What is done with a slab. -/
inductive SlotAction where
  /-- Take a slot. -/
  | take
  /-- Put a slot back. -/
  | release (slot : UInt64)
  deriving DecidableEq

/-- What a request is answered with. -/
inductive SlotReply where
  /-- The address of the slot that was taken, if there was one. -/
  | object (address : Option UInt64)
  /-- Nothing to say. -/
  | done
  deriving DecidableEq

/-- What a request comes to. -/
def Slab.serve (slab : Slab) (memory : Memory) : SlotAction → Except Fault (SlotReply × Memory)
  | .take => do
    let (answer, memory) ← slab.take memory
    return (.object answer, memory)
  | .release slot => return (.done, ← slab.release memory slot)

/-! ## Ledgers -/

/-- What the requests so far made of the slots. -/
structure SlotLedger where
  /-- The free slots, the next to be taken in front. -/
  free : List UInt64
  /-- The slots that are taken, the latest in front. -/
  taken : List UInt64 := []
  deriving DecidableEq

namespace SlotLedger

/-- At first every slot is free. -/
def fresh (slots : Nat) : SlotLedger := { free := Slab.inOrder slots }

/-- A slot that comes back has to be taken. -/
def Permits (ledger : SlotLedger) : SlotAction → Prop
  | .take => True
  | .release slot => slot ∈ ledger.taken

/-- The ledger after a request. -/
def note (ledger : SlotLedger) : SlotAction → SlotLedger
  | .take =>
    match ledger.free with
    | [] => ledger
    | slot :: rest => { free := rest, taken := slot :: ledger.taken }
  | .release slot => { free := slot :: ledger.free, taken := ledger.taken.erase slot }

/-- Each slot is free or taken, and only once. -/
def Partitions (ledger : SlotLedger) (slots : Nat) : Prop :=
  (ledger.free ++ ledger.taken).Perm (Slab.inOrder slots)

variable {ledger : SlotLedger} {slots : Nat} {action : SlotAction} {slot : UInt64}

theorem partitions_fresh (slots : Nat) : (fresh slots).Partitions slots := by
  rw [Partitions, fresh, List.append_nil]

/-- A request moves a slot from one side to the other. -/
theorem Partitions.note (h : ledger.Partitions slots) (permitted : ledger.Permits action) :
    (ledger.note action).Partitions slots := by
  refine List.Perm.trans ?_ h
  cases action with
  | take =>
    obtain ⟨free, taken⟩ := ledger
    cases free with
    | nil => exact List.Perm.refl taken
    | cons slot rest => exact List.perm_middle
  | release slot =>
    have back : (slot :: ledger.taken.erase slot).Perm ledger.taken :=
      (List.perm_cons_erase permitted).symm
    exact List.perm_middle.symm.trans (back.append_left ledger.free)

theorem Partitions.nodup (h : ledger.Partitions slots) (few : slots ≤ 255) :
    (ledger.free ++ ledger.taken).Nodup :=
  (List.Perm.nodup_iff h).2 (Slab.nodup_inOrder few)

theorem Partitions.mem_iff (h : ledger.Partitions slots) (few : slots ≤ 255) :
    slot ∈ ledger.free ∨ slot ∈ ledger.taken ↔ slot.toNat < slots := by
  rw [← List.mem_append, List.Perm.mem_iff h, Slab.mem_inOrder few]

theorem Partitions.length (h : ledger.Partitions slots) :
    ledger.free.length + ledger.taken.length = slots := by
  rw [← List.length_append, List.Perm.length_eq h, Slab.length_inOrder]

end SlotLedger

/-! ## Slabs that keep the ledger -/

namespace Slab

/-- What permitted requests lead to, from a slab of so many slots that was carved. -/
inductive Reachable (slab : Slab) (slots : Nat) (carved : Memory) : Memory → SlotLedger → Prop
  | carved : Reachable slab slots carved carved (.fresh slots)
  | step {memory memory' : Memory} {ledger : SlotLedger} {action : SlotAction}
      {reply : SlotReply} :
    Reachable slab slots carved memory ledger → ledger.Permits action →
      slab.serve memory action = .ok (reply, memory') →
      Reachable slab slots carved memory' (ledger.note action)

/-- The slab keeps the ledger in its page. -/
structure Keeps (slab : Slab) (slots : Nat) (carved memory : Memory) (ledger : SlotLedger) :
    Prop where
  /-- From the head on, the table bytes lead through the free slots to the end mark. -/
  chain : slab.FreeSlots memory ledger.free
  /-- They do so in as many steps as slots are not live. -/
  steps : ledger.free.length + (slab.live memory).toNat = slots
  /-- No slot is met twice, -/
  nodup : ledger.free.Nodup
  /-- and the slots that are met are those of the slab that are not taken. -/
  mem_iff : ∀ slot, slot ∈ ledger.free ↔ slot.toNat < slots ∧ slot ∉ ledger.taken
  /-- Slots of the slab are taken, each once, -/
  taken : ledger.taken.Nodup ∧ ∀ slot ∈ ledger.taken, slot.toNat < slots
  /-- and counted. -/
  live : (slab.live memory).toNat = ledger.taken.length
  isFull_iff : slab.isFull memory = true ↔ (slab.live memory).toNat = slots
  isEmpty_iff : slab.isEmpty memory = true ↔ (slab.live memory).toNat = 0
  /-- The link and the objects are as they were carved, and so is every byte but the counters and
  the table. -/
  layout : slab.SameLayout slots carved memory

/-- The slab does what the ledger says. -/
structure Obeys (slab : Slab) (slots : Nat) (memory : Memory) (ledger : SlotLedger) : Prop where
  /-- No permitted request stops at a fault. -/
  ends : ∀ action, ledger.Permits action → ∃ reply memory',
    slab.serve memory action = .ok (reply, memory')
  /-- No slot is handed out exactly if all are live. -/
  none_iff : (∃ memory', slab.take memory = .ok (none, memory')) ↔
    (slab.live memory).toNat = slots
  /-- A slot that is handed out is the one on top. -/
  object : ∀ address memory', slab.take memory = .ok (some address, memory') →
    ∃ slot rest, ledger.free = slot :: rest ∧ address.toNat =
      (slab.objectBase memory).toNat + slot.toNat * (slab.objectSize memory).toNat

/-- The addresses of the slots are addresses. -/
def Addressed (slab : Slab) (slots : Nat) (memory : Memory) : Prop :=
  ∀ slot : UInt64, slot.toNat < slots →
    (slab.objectBase memory).toNat + slot.toNat * (slab.objectSize memory).toNat < 2 ^ 64

variable {slab : Slab} {slots : Nat} {carved memory memory' : Memory} {ledger : SlotLedger}
  {action : SlotAction} {slot : UInt64}

theorem Addressed.addressOf_eq (h : slab.Addressed slots memory) (inRange : slot.toNat < slots) :
    ∃ address, slab.addressOf memory slot = .ok address ∧ address.toNat =
      (slab.objectBase memory).toNat + slot.toNat * (slab.objectSize memory).toNat := by
  have value := UInt64.toNat_ofNat_of_lt' (h slot inRange)
  exact ⟨_, addressOf_eq_ok_iff.2 value.symm, value⟩

theorem Addressed.of_layout (h : slab.Addressed slots memory)
    (same : slab.SameLayout slots memory memory') : slab.Addressed slots memory' := by
  intro slot inRange
  rw [same.objectBase, same.objectSize]
  exact h slot inRange

/-! ## One request -/

/-- A slab that is a stack serves every permitted request, and is the stack that the ledger says
after it. -/
theorem Stacks.serve (h : slab.Stacks memory slots ledger.free) (few : slots ≤ 255)
    (partitions : ledger.Partitions slots) (addressed : slab.Addressed slots memory)
    (permitted : ledger.Permits action) :
    ∃ reply memory', slab.serve memory action = .ok (reply, memory') ∧
      slab.Stacks memory' slots (ledger.note action).free ∧
      slab.SameLayout slots memory memory' := by
  cases action with
  | take =>
    obtain ⟨free, taken⟩ := ledger
    cases free with
    | nil =>
      refine ⟨.object none, memory, ?_, h, .refl slab slots memory⟩
      simp only [Slab.serve, h.take_none, bind, Except.bind, pure, Except.pure]
    | cons slot rest =>
      obtain ⟨address, located, _⟩ := addressed.addressOf_eq (h.inRange slot List.mem_cons_self)
      obtain ⟨memory', ends, stacked, same⟩ := h.take few located
      refine ⟨.object (some address), memory', ?_, stacked, same⟩
      simp only [Slab.serve, ends, bind, Except.bind, pure, Except.pure]
  | release slot =>
    have inRange : slot.toNat < slots := (partitions.mem_iff few).1 (.inr permitted)
    have live : slot ∉ ledger.free := by
      intro free
      exact (List.nodup_append.1 (partitions.nodup few)).2.2 slot free slot permitted rfl
    obtain ⟨memory', ends, stacked, same⟩ := h.release few inRange live
    refine ⟨.done, memory', ?_, stacked, same⟩
    simp only [Slab.serve, ends, bind, Except.bind, pure, Except.pure]

/-- A stack keeps a ledger that has the same free slots. -/
theorem Stacks.keeps (h : slab.Stacks memory slots ledger.free) (few : slots ≤ 255)
    (partitions : ledger.Partitions slots) (layout : slab.SameLayout slots carved memory) :
    slab.Keeps slots carved memory ledger := by
  obtain ⟨nodup, nodupTaken, apart⟩ := List.nodup_append.1 (partitions.nodup few)
  have count := h.count
  have length := partitions.length
  refine ⟨h.chain, by omega, nodup, ?_, ⟨nodupTaken, ?_⟩, by omega, ?_, ?_, layout⟩
  · intro slot
    rw [← partitions.mem_iff few]
    constructor
    · intro free
      exact ⟨.inl free, fun taken => apart slot free slot taken rfl⟩
    · rintro ⟨free | taken, kept⟩
      · exact free
      · exact absurd taken kept
  · intro slot taken
    exact (partitions.mem_iff few).1 (.inr taken)
  · rw [h.chain.isFull_iff, ← List.length_eq_zero_iff]
    omega
  · rw [h.isEmpty_iff]
    omega

/-- A stack does what such a ledger says. -/
theorem Stacks.obeys (h : slab.Stacks memory slots ledger.free) (few : slots ≤ 255)
    (partitions : ledger.Partitions slots) (addressed : slab.Addressed slots memory) :
    slab.Obeys slots memory ledger := by
  refine ⟨?_, ?_, ?_⟩
  · intro action permitted
    obtain ⟨reply, memory', ends, _⟩ := h.serve few partitions addressed permitted
    exact ⟨reply, memory', ends⟩
  · have count := h.count
    cases free : ledger.free with
    | nil =>
      rw [free] at h count
      exact ⟨fun _ => count, fun _ => ⟨memory, h.take_none⟩⟩
    | cons slot rest =>
      rw [free] at h count
      obtain ⟨address, located, _⟩ := addressed.addressOf_eq (h.inRange slot List.mem_cons_self)
      obtain ⟨memory', ends, _⟩ := h.take few located
      rw [List.length_cons] at count
      constructor
      · rintro ⟨memory'', none⟩
        rw [ends] at none
        cases none
      · intro all
        omega
  · intro address memory' ends
    cases free : ledger.free with
    | nil =>
      rw [free] at h
      rw [h.take_none] at ends
      cases ends
    | cons slot rest =>
      rw [free] at h
      obtain ⟨address', located, value⟩ :=
        addressed.addressOf_eq (h.inRange slot List.mem_cons_self)
      obtain ⟨memory'', ends', _⟩ := h.take few located
      rw [ends] at ends'
      cases ends'
      exact ⟨slot, rest, rfl, value⟩

/-! ## Many requests -/

/-- A slab that was carved as a stack stays the stack that its ledger says. -/
theorem Reachable.stacks (few : slots ≤ 255)
    (fresh : slab.Stacks carved slots (inOrder slots)) (addressed : slab.Addressed slots carved)
    (reachable : slab.Reachable slots carved memory ledger) :
    slab.Stacks memory slots ledger.free ∧ ledger.Partitions slots ∧
      slab.SameLayout slots carved memory := by
  induction reachable with
  | carved => exact ⟨fresh, SlotLedger.partitions_fresh slots, .refl slab slots carved⟩
  | step _ permitted ends ih =>
    obtain ⟨stacked, partitions, layout⟩ := ih
    obtain ⟨_, _, ends', stacked', same⟩ :=
      stacked.serve few partitions (addressed.of_layout layout) permitted
    rw [ends] at ends'
    cases ends'
    exact ⟨stacked', partitions.note permitted, layout.trans same⟩

/-- Slots that fit in a page have addresses, if slot 0 has one. -/
theorem addressed_of_holds {pageSize objectSize : UInt64}
    (holds : HoldsSlots pageSize objectSize slots)
    (room : slab.base.toNat + pageSize.toNat ≤ 2 ^ 64)
    (start : slab.base.toNat + firstSlot slots < 2 ^ 64)
    (noted : slab.objectSize carved = objectSize)
    (noted' : slab.objectBase carved = slab.base + UInt64.ofNat (firstSlot slots)) :
    slab.Addressed slots carved := by
  intro slot inRange
  have value : (slab.base + UInt64.ofNat (firstSlot slots)).toNat =
      slab.base.toNat + firstSlot slots := by
    rw [UInt64.toNat_add, UInt64.toNat_ofNat']
    omega
  rw [noted, noted', value]
  unfold HoldsSlots at holds
  -- Slots of no bytes all start where slot 0 does, the others end within the page.
  by_cases none : objectSize.toNat = 0
  · rw [none, Nat.mul_zero]
    exact start
  · have bodies := Nat.mul_le_mul_right objectSize.toNat (Nat.succ_le_of_lt inRange)
    rw [Nat.succ_mul] at bodies
    omega

/-- Where slot 0 has no address, carving stops at the sum that would be one. -/
theorem carve_beyond {pageSize objectSize slots : UInt64}
    (answer : capacity pageSize objectSize = .ok slots) (some : slots ≠ 0)
    (beyond : 2 ^ 64 ≤ slab.base.toNat + firstSlot slots.toNat) (memory : Memory) :
    slab.carve memory objectSize pageSize = .error .addOverflow := by
  obtain ⟨few, _⟩ := holds_of_capacity answer some
  have offset := firstSlot_le slots.toNat
  have sum : checkedAdd slab.base (UInt64.ofNat (firstSlot slots.toNat)) = .error .addOverflow := by
    rw [checkedAdd, UInt64.toNat_ofNat', UInt64.size, if_neg]
    omega
  simp only [carve, answer, if_neg some, objectsOffset_eq few, sum, bind, Except.bind]

/-- Slots that fit in a page which ends within the address space begin within it, unless they are
of no bytes and begin at its end. -/
theorem start_lt_of_holds {pageSize objectSize slots : UInt64}
    (holds : HoldsSlots pageSize objectSize slots.toNat) (some : slots ≠ 0)
    (room : slab.base.toNat + pageSize.toNat ≤ 2 ^ 64)
    (corner : ¬ (objectSize = 0 ∧ slab.base.toNat + firstSlot slots.toNat = 2 ^ 64)) :
    slab.base.toNat + firstSlot slots.toNat < 2 ^ 64 := by
  have fits : firstSlot slots.toNat + slots.toNat * objectSize.toNat ≤ pageSize.toNat := holds
  by_cases size : objectSize = 0
  · have other : slab.base.toNat + firstSlot slots.toNat ≠ 2 ^ 64 := fun e => corner ⟨size, e⟩
    omega
  · have nonzero : objectSize.toNat ≠ 0 := fun zero => size (UInt64.toNat_inj.1 zero)
    have nonzero' : slots.toNat ≠ 0 := fun zero => some (UInt64.toNat_inj.1 zero)
    have bodies := Nat.mul_pos (Nat.pos_of_ne_zero nonzero') (Nat.pos_of_ne_zero nonzero)
    omega

/-- **A carved slab is a stack of its slots.**  Whatever the address and the sizes, if some slots
fit in the page and the page ends within the address space, then carving ends, and every run of
permitted requests keeps the ledger and is answered as the ledger says.  Only slots of no bytes
that would begin where the address space ends are left out. -/
theorem carve_keeps {pageSize objectSize slots : UInt64}
    (answer : capacity pageSize objectSize = .ok slots) (some : slots ≠ 0)
    (room : slab.base.toNat + pageSize.toNat ≤ 2 ^ 64)
    (corner : ¬ (objectSize = 0 ∧ slab.base.toNat + firstSlot slots.toNat = 2 ^ 64))
    (memory : Memory) :
    ∃ carved, slab.carve memory objectSize pageSize = .ok (slots, carved) ∧
      slab.next carved = none ∧ slab.objectSize carved = objectSize ∧
      (slab.objectBase carved).toNat = slab.base.toNat + firstSlot slots.toNat ∧
      ∀ memory' ledger, slab.Reachable slots.toNat carved memory' ledger →
        slab.Keeps slots.toNat carved memory' ledger ∧ slab.Obeys slots.toNat memory' ledger := by
  obtain ⟨few, holds⟩ := holds_of_capacity answer some
  have start := start_lt_of_holds holds some room corner
  obtain ⟨carved, ends, next, noted, noted', fresh, _⟩ := carve_stacks answer some start memory
  have addressed := addressed_of_holds holds room start noted noted'
  refine ⟨carved, ends, next, noted, ?_, fun memory' ledger reachable => ?_⟩
  · rw [noted', UInt64.toNat_add, UInt64.toNat_ofNat']
    omega
  · obtain ⟨stacked, partitions, layout⟩ := reachable.stacks few fresh addressed
    exact ⟨stacked.keeps few partitions layout,
      stacked.obeys few partitions (addressed.of_layout layout)⟩

/-- In the last 288 bytes there is a header and a table of 255 slots of no bytes, but no address
of slot 0. -/
theorem carve_overflows :
    capacity 288 0 = .ok 255 ∧ (255 : UInt64) ≠ 0 ∧
      (Slab.mk 0xFFFFFFFFFFFFFEE0).base.toNat + (288 : UInt64).toNat ≤ 2 ^ 64 ∧
      (Slab.mk 0xFFFFFFFFFFFFFEE0).carve {} 0 288 = .error .addOverflow := by
  have answer : capacity 288 0 = .ok 255 := by decide
  have some : (255 : UInt64) ≠ 0 := by decide
  exact ⟨answer, some, by decide, carve_beyond answer some (by decide) {}⟩

/-- As many slots as a byte can count, of which the first came back and the second is taken. -/
theorem carve_keeps_most :
    capacity 4096 8 = .ok 255 ∧ (255 : UInt64) ≠ 0 ∧
      (Slab.mk 0x3008).base.toNat + (4096 : UInt64).toNat ≤ 2 ^ 64 ∧
      ¬ ((8 : UInt64) = 0 ∧ (Slab.mk 0x3008).base.toNat + firstSlot 255 = 2 ^ 64) ∧
      ∃ carved memory ledger, (Slab.mk 0x3008).carve {} 8 4096 = .ok (255, carved) ∧
        (Slab.mk 0x3008).Reachable 255 carved memory ledger ∧
        ledger = ⟨0 :: (inOrder 255).drop 2, [1]⟩ ∧
        (Slab.mk 0x3008).Keeps 255 carved memory ledger ∧
        (Slab.mk 0x3008).Obeys 255 memory ledger := by
  have answer : capacity 4096 8 = .ok 255 := by decide
  have some : (255 : UInt64) ≠ 0 := by decide
  have room : (Slab.mk 0x3008).base.toNat + (4096 : UInt64).toNat ≤ 2 ^ 64 := by decide
  have corner : ¬ ((8 : UInt64) = 0 ∧ (Slab.mk 0x3008).base.toNat + firstSlot 255 = 2 ^ 64) := by
    decide
  refine ⟨answer, some, room, corner, ?_⟩
  obtain ⟨carved, ends, _, _, _, keeps⟩ := carve_keeps answer some room corner {}
  have fresh : (Slab.mk 0x3008).Reachable 255 carved carved (.fresh 255) := .carved
  obtain ⟨_, _, first⟩ := (keeps _ _ fresh).2.ends .take trivial
  have one : (Slab.mk 0x3008).Reachable 255 carved _ ((SlotLedger.fresh 255).note .take) :=
    fresh.step trivial first
  obtain ⟨_, _, second⟩ := (keeps _ _ one).2.ends .take trivial
  have two : (Slab.mk 0x3008).Reachable 255 carved _
      (((SlotLedger.fresh 255).note .take).note .take) := one.step trivial second
  have ledger : ((SlotLedger.fresh 255).note .take).note .take =
      { free := (inOrder 255).drop 2, taken := [1, 0] } := by decide +kernel
  rw [ledger] at two
  have permitted : SlotLedger.Permits { free := (inOrder 255).drop 2, taken := [1, 0] }
      (.release 0) := .tail _ List.mem_cons_self
  obtain ⟨_, memory, third⟩ := (keeps _ _ two).2.ends (.release 0) permitted
  have back := two.step permitted third
  exact ⟨carved, memory, _, ends, back, rfl, keeps _ _ back⟩

end Slab

end SlabHeap
