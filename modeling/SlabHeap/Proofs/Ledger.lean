import Mathlib.Data.Fintype.BigOperators
import SlabHeap.Proofs.SharedRefinement

/-!
# What callers hold

A ledger lists the objects that callers were answered with and did not free since.
A teardown leaks the objects of its allocator, but for those of the bootstrap
class.  They stay in the ledger and may be written to, but nobody may free them.

`Ledger.Permits` says what a caller may do and `Ledger.note` what the ledger
becomes.  Both look at actions and replies only, so they can be read without
knowing the heap.  `SharedHeap.Reachable` collects the states that permitted
actions lead to.

The ledger agrees with the abstract heap (`Ledger.Accounts`): for each allocator
it has the blocks of its users, and what leaked are the blocks of the caches that
were given up.  `SharedView.Describes.perform_refines` is the step, and
`SharedHeap.Reachable.exists_view` follows by induction.
-/

namespace SlabHeap

/-- An object that a caller was answered with. -/
structure Holding (count : Nat) where
  /-- The allocator that served it. -/
  owner : Fin count
  /-- Its bytes. -/
  block : Block
  /-- Whether its cache was given up. -/
  leaked : Bool := false
  deriving DecidableEq, Repr

/-- What callers know of a shared heap. -/
structure Ledger (count : Nat) where
  /-- The objects that were not freed, the latest first. -/
  holdings : List (Holding count) := []
  /-- The regions that were accepted, the latest first. -/
  regions : List Extent := []
  /-- Whether an allocator is open. -/
  opened : Fin count → Bool := fun _ => false

variable {count : Nat}

namespace Holding

/-- The object belongs to an allocator and can be freed there. -/
def LiveAt (i : Fin count) (holding : Holding count) : Prop :=
  holding.owner = i ∧ holding.leaked = false

instance (i : Fin count) (holding : Holding count) : Decidable (holding.LiveAt i) :=
  inferInstanceAs (Decidable (_ ∧ _))

/-- The object is the one at an address. -/
def isAt (i : Fin count) (object : UInt64) (holding : Holding count) : Bool :=
  holding.LiveAt i ∧ holding.block.address = object

/-- The object after its allocator was torn down. -/
def leave (i : Fin count) (holding : Holding count) : Holding count :=
  if holding.LiveAt i ∧ holding.block.size ≠ bootstrapClass.size then
    { holding with leaked := true }
  else holding

/-- The blocks of an allocator's users. -/
def usersIn (i : Fin count) (holdings : List (Holding count)) : Multiset Block :=
  (holdings.filter fun holding => holding.LiveAt i).map block

/-- The blocks of caches that were given up. -/
def leakedIn (holdings : List (Holding count)) : Multiset Block :=
  (holdings.filter leaked).map block

end Holding

namespace Ledger

/-- The blocks that an allocator's users hold. -/
def users (ledger : Ledger count) (i : Fin count) : Multiset Block :=
  Holding.usersIn i ledger.holdings

/-- The blocks that were leaked. -/
def leaked (ledger : Ledger count) : Multiset Block := Holding.leakedIn ledger.holdings

/-- What callers may do: free an object of an open allocator that is live there,
write within an object, and add memory that was not added before. -/
def Permits (ledger : Ledger count) : Action count → Prop
  | .request (.free i object) => ledger.opened i = true →
    ∃ holding ∈ ledger.holdings, holding.LiveAt i ∧ holding.block.address = object
  | .request (.write address values) =>
    ∃ holding ∈ ledger.holdings, Memory.run address values.length ⊆ holding.block.run
  | .addMemory start length =>
    ∀ other ∈ ledger.regions, Disjoint (Extent.mk start length).addresses other.addresses
  | _ => True

/-- The ledger after an action and the reply to it. -/
def note (ledger : Ledger count) : Action count → Reply → Ledger count
  | .request (.init i), _ => { ledger with opened := Function.update ledger.opened i true }
  | .request (.teardown i), _ =>
    if ledger.opened i then
      { ledger with
        holdings := ledger.holdings.map (Holding.leave i)
        opened := Function.update ledger.opened i false }
    else ledger
  | .request (.alloc i bytes), .object (.ok object) =>
    { ledger with holdings := ⟨i, ⟨object, servedSize bytes⟩, false⟩ :: ledger.holdings }
  | .request (.free i object), _ =>
    if ledger.opened i then
      { ledger with holdings := ledger.holdings.eraseP (Holding.isAt i object) }
    else ledger
  | .addMemory start length, .region (.ok ()) =>
    { ledger with regions := ⟨start, length⟩ :: ledger.regions }
  | _, _ => ledger

end Ledger

/-! ## Holdings after an action -/

namespace Holding

variable {holdings others : List (Holding count)} {i j : Fin count} {holding : Holding count}
  {object : UInt64}

theorem usersIn_cons : usersIn i (holding :: holdings) =
    (if holding.LiveAt i then {holding.block} else 0) + usersIn i holdings := by
  rw [usersIn, usersIn, List.filter_cons]
  simp only [decide_eq_true_eq]
  split
  · rw [List.map_cons, ← Multiset.cons_coe, Multiset.singleton_add]
  · rw [Multiset.zero_add]

theorem leakedIn_cons : leakedIn (holding :: holdings) =
    (if holding.leaked then {holding.block} else 0) + leakedIn holdings := by
  rw [leakedIn, leakedIn, List.filter_cons]
  split
  · rw [List.map_cons, ← Multiset.cons_coe, Multiset.singleton_add]
  · rw [Multiset.zero_add]

theorem usersIn_append :
    usersIn i (holdings ++ others) = usersIn i holdings + usersIn i others := by
  rw [usersIn, List.filter_append, List.map_append, ← Multiset.coe_add]
  rfl

theorem leakedIn_append : leakedIn (holdings ++ others) = leakedIn holdings + leakedIn others := by
  rw [leakedIn, List.filter_append, List.map_append, ← Multiset.coe_add]
  rfl

/-- Every block is held by the users of one allocator or was leaked. -/
theorem blocks_eq (holdings : List (Holding count)) :
    (holdings.map block : Multiset Block) = ∑ i, usersIn i holdings + leakedIn holdings := by
  induction holdings with
  | nil =>
    have none : ∑ i : Fin count, usersIn i [] = 0 := Finset.sum_eq_zero fun _ _ => rfl
    rw [none]
    rfl
  | cons holding rest ih =>
    have own : ∑ i, (if holding.LiveAt i then ({holding.block} : Multiset Block) else 0) +
        (if holding.leaked then {holding.block} else 0) = {holding.block} := by
      rcases leaked : holding.leaked with _ | _
      · have live (i : Fin count) : holding.LiveAt i ↔ holding.owner = i :=
          ⟨fun h => h.1, fun h => ⟨h, leaked⟩⟩
        simp only [live, Finset.sum_ite_eq, Finset.mem_univ, if_true, Bool.false_eq_true, if_false,
          Multiset.add_zero]
      · have live (i : Fin count) : ¬ holding.LiveAt i := fun h =>
          Bool.false_ne_true (h.2.symm.trans leaked)
        simp only [live, if_false, Finset.sum_const_zero, if_true, Multiset.zero_add]
    simp only [usersIn_cons, leakedIn_cons, Finset.sum_add_distrib]
    rw [List.map_cons, ← Multiset.cons_coe, ih, ← Multiset.singleton_add]
    refine (congrArg (· + (∑ i, usersIn i rest + leakedIn rest)) own.symm).trans ?_
    abel

/-- Freeing takes one block away from the users of its allocator. -/
theorem exists_erase
    (held : ∃ holding ∈ holdings, holding.LiveAt i ∧ holding.block.address = object) :
    ∃ block : Block, block.address = object ∧
      usersIn i holdings = block ::ₘ usersIn i (holdings.eraseP (isAt i object)) ∧
      (∀ j ≠ i, usersIn j (holdings.eraseP (isAt i object)) = usersIn j holdings) ∧
      leakedIn (holdings.eraseP (isAt i object)) = leakedIn holdings := by
  obtain ⟨holding, mem, named⟩ := held
  have test : holding.isAt i object = true := decide_eq_true named
  obtain ⟨freed, front, back, _, live, split, erased⟩ := List.exists_of_eraseP mem test
  obtain ⟨⟨own, kept⟩, address⟩ := of_decide_eq_true live
  refine ⟨freed.block, address, ?_⟩
  rw [erased, split]
  refine ⟨?_, fun j differ => ?_, ?_⟩
  · rw [usersIn_append, usersIn_append, usersIn_cons, if_pos ⟨own, kept⟩, Multiset.singleton_add,
      Multiset.add_cons]
  · have other : ¬ freed.LiveAt j := fun h => differ (h.1.symm.trans own)
    rw [usersIn_append, usersIn_append, usersIn_cons, if_neg other, Multiset.zero_add]
  · rw [leakedIn_append, leakedIn_append, leakedIn_cons, kept, if_neg Bool.false_ne_true,
      Multiset.zero_add]

theorem block_leave (i : Fin count) (holding : Holding count) :
    (holding.leave i).block = holding.block := by
  unfold leave
  split <;> rfl

theorem liveAt_leave : (holding.leave i).LiveAt j ↔
    holding.LiveAt j ∧ (j = i → holding.block.size = bootstrapClass.size) := by
  unfold leave
  split
  · rename_i gone
    constructor
    · intro h
      exact absurd h.2 Bool.true_eq_false.mp
    · rintro ⟨own, stays⟩
      exact absurd (stays (own.1.symm.trans gone.1.1)) gone.2
  · rename_i stays
    refine ⟨fun own => ⟨own, ?_⟩, fun h => h.1⟩
    rintro rfl
    exact Decidable.byContradiction fun differ => stays ⟨own, differ⟩

theorem leaked_leave : (holding.leave i).leaked = true ↔
    holding.leaked = true ∨ holding.LiveAt i ∧ holding.block.size ≠ bootstrapClass.size := by
  unfold leave
  split
  · rename_i gone
    exact ⟨fun _ => .inr gone, fun _ => rfl⟩
  · rename_i stays
    exact ⟨.inl, fun h => h.resolve_right stays⟩

/-- A teardown leaves the users of its allocator the blocks of the bootstrap
class. -/
theorem usersIn_leave (holdings : List (Holding count)) (i : Fin count) :
    usersIn i (holdings.map (leave i)) =
      (usersIn i holdings).filter (·.size = bootstrapClass.size) := by
  induction holdings with
  | nil => rfl
  | cons holding rest ih =>
    rw [List.map_cons, usersIn_cons, usersIn_cons, ih, Multiset.filter_add, block_leave]
    congr 1
    by_cases live : holding.LiveAt i
    · simp only [liveAt_leave, live, true_and, forall_const, if_true, Multiset.filter_singleton]
      rfl
    · simp only [liveAt_leave, live, false_and, if_false, Multiset.filter_zero]

theorem usersIn_leave_of_ne (holdings : List (Holding count)) (differ : j ≠ i) :
    usersIn j (holdings.map (leave i)) = usersIn j holdings := by
  induction holdings with
  | nil => rfl
  | cons holding rest ih =>
    rw [List.map_cons, usersIn_cons, usersIn_cons, ih, block_leave]
    simp only [liveAt_leave, differ, false_implies, and_true]

/-- The other blocks leak. -/
theorem leakedIn_leave (holdings : List (Holding count)) (i : Fin count) :
    leakedIn (holdings.map (leave i)) =
      (usersIn i holdings).filter (·.size ≠ bootstrapClass.size) + leakedIn holdings := by
  induction holdings with
  | nil => rfl
  | cons holding rest ih =>
    have own : (if (holding.leave i).leaked then ({holding.block} : Multiset Block) else 0) =
        (if holding.LiveAt i then ({holding.block} : Multiset Block) else 0).filter
          (·.size ≠ bootstrapClass.size) + (if holding.leaked then {holding.block} else 0) := by
      by_cases live : holding.LiveAt i
      · simp only [leaked_leave, live, live.2, Bool.false_eq_true, false_or, true_and, if_true,
          if_false, Multiset.filter_singleton, Multiset.add_zero]
        rfl
      · simp only [leaked_leave, live, false_and, or_false, if_false, Multiset.filter_zero,
          Multiset.zero_add]
    rw [List.map_cons, leakedIn_cons, leakedIn_cons, usersIn_cons, ih, Multiset.filter_add,
      block_leave, own]
    abel

end Holding

namespace Ledger

variable {ledger : Ledger count} {i : Fin count} {block : Block} {object : UInt64}
  {action : Action count} {reply : Reply}

theorem mem_users_iff : block ∈ ledger.users i ↔
    ∃ holding ∈ ledger.holdings, holding.LiveAt i ∧ holding.block = block := by
  simp [users, Holding.usersIn, and_assoc]

/-- What an allocator's users may free. -/
theorem mem_addresses_iff : object ∈ (ledger.users i).map Block.address ↔
    ∃ holding ∈ ledger.holdings, holding.LiveAt i ∧ holding.block.address = object := by
  simp [users, Holding.usersIn, and_assoc]

/-- Only serving adds an object. -/
theorem mem_users_of_note (mem : block ∈ (ledger.note action reply).users i) :
    block ∈ ledger.users i ∨ ∃ bytes, action = .request (.alloc i bytes) ∧
      reply = .object (.ok block.address) ∧ block.size = servedSize bytes := by
  obtain ⟨holding, held, live, rfl⟩ := mem_users_iff.1 mem
  have kept (before : holding ∈ ledger.holdings) : holding.block ∈ ledger.users i :=
    mem_users_iff.2 ⟨holding, before, live, rfl⟩
  clear mem
  unfold note at held
  split at held
  · exact .inl (kept held)
  · split at held
    · obtain ⟨before, listed, rfl⟩ := List.mem_map.1 held
      exact .inl (mem_users_iff.2
        ⟨before, listed, (Holding.liveAt_leave.1 live).1, (Holding.block_leave _ before).symm⟩)
    · exact .inl (kept held)
  · rename_i j bytes object
    cases held with
    | head =>
      obtain rfl : j = i := live.1
      exact .inr ⟨bytes, rfl, rfl, rfl⟩
    | tail _ before => exact .inl (kept before)
  · split at held
    · exact .inl (kept (List.mem_of_mem_eraseP held))
    · exact .inl (kept held)
  · exact .inl (kept held)
  · exact .inl (kept held)

end Ledger

end SlabHeap
