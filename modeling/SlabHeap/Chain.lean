import SlabHeap.Fault

/-!
# Chains

The heap keeps nearly everything in chains: free pages, slabs with room, free
slots of a slab, caches of a bucket.  A chain starts at a link, and each of its
elements says which one comes after it.  The elements live in memory, so whether
following the links ever ends depends on what memory holds.

`Chain next link elements` says that it does, and with which elements.  It is
the view through which operations on chains are understood.  A chain is
determined by its first link (`Chain.unique`), and so a chain that ends never
comes back to an element (`Chain.nodup`).  Hence a chain of addresses has at
most `chainBound` elements (`Chain.length_le_chainBound`).

A walk along links takes a bound, and a walk that reaches it stops at a fault.
`findWithin` searches and `listWithin` lists.  Under a bound that the chain
respects they are the functions of lists (`Chain.findWithin_eq`,
`Chain.listWithin_eq`).

`Leads` is the same for a part of a chain, which comes to a link and not to an
end.  Nothing is said of what follows that link.
-/

namespace SlabHeap

variable {α : Type}

/-! ## Walking -/

/-- One element for each address, which is as many as a chain of addresses can
have. -/
def chainBound : Nat := UInt64.size

/-- The first element of a chain that passes a test, among at most the given
number. -/
def findWithin (next : α → Option α) (test : α → Bool) :
    Nat → Option α → Except Fault (Option α)
  | _, none => .ok none
  | 0, some _ => .error .endlessChain
  | left + 1, some a => if test a then .ok (some a) else findWithin next test left (next a)

/-- The elements of a chain, if there are at most the given number. -/
def listWithin (next : α → Option α) : Nat → Option α → Except Fault (List α)
  | _, none => .ok []
  | 0, some _ => .error .endlessChain
  | left + 1, some a => return a :: (← listWithin next left (next a))

/-! ## The elements of a chain -/

/-- Following `next` from a link meets exactly the given elements and ends. -/
def Chain (next : α → Option α) : Option α → List α → Prop
  | link, [] => link = none
  | link, a :: rest => link = some a ∧ Chain next (next a) rest

namespace Chain

variable {next next' : α → Option α} {link : Option α} {a : α} {elements others : List α}

@[simp] theorem nil_iff : Chain next link [] ↔ link = none := Iff.rfl

@[simp] theorem cons_iff :
    Chain next link (a :: elements) ↔ link = some a ∧ Chain next (next a) elements := Iff.rfl

@[simp] theorem none_iff : Chain next none elements ↔ elements = [] := by
  cases elements <;> simp

theorem head?_eq (h : Chain next link elements) : link = elements.head? := by
  cases elements with
  | nil => exact h
  | cons a rest => exact h.1

/-- The first link decides the whole chain. -/
theorem unique (h : Chain next link elements) (h' : Chain next link others) :
    elements = others := by
  induction elements generalizing link others with
  | nil =>
    obtain rfl := h
    exact (none_iff.1 h').symm
  | cons a rest ih =>
    obtain ⟨rfl, tail⟩ := h
    cases others with
    | nil => cases h'
    | cons b rest' =>
      obtain ⟨same, tail'⟩ := h'
      cases same
      rw [ih tail tail']

/-- Two chains with the same elements link them in the same way. -/
theorem next_eq (h : Chain next link elements) {link' : Option α}
    (h' : Chain next' link' elements) : ∀ a ∈ elements, next' a = next a := by
  induction elements generalizing link link' with
  | nil => nofun
  | cons b rest ih =>
    intro a mem
    cases mem with
    | head => cases rest with
      | nil => exact Eq.trans h'.2 (Eq.symm h.2)
      | cons c rest => exact h'.2.1.trans h.2.1.symm
    | tail _ later => exact ih h.2 h'.2 a later

/-- A chain looks only at the successors of its own elements. -/
theorem congr (h : Chain next link elements) (same : ∀ a ∈ elements, next' a = next a) :
    Chain next' link elements := by
  induction elements generalizing link with
  | nil => exact h
  | cons a rest ih =>
    obtain ⟨rfl, tail⟩ := h
    refine ⟨rfl, ?_⟩
    rw [same a List.mem_cons_self]
    exact ih tail fun b hb => same b (List.mem_cons_of_mem a hb)

/-- From each element on, a chain is the chain of that element. -/
theorem of_append {front : List α} (h : Chain next link (front ++ a :: elements)) :
    Chain next (some a) (a :: elements) := by
  induction front generalizing link with
  | nil =>
    obtain ⟨rfl, tail⟩ := h
    exact ⟨rfl, tail⟩
  | cons b front ih => exact ih h.2

/-- Each element of a chain is what the first link or an element links to. -/
theorem linked_of_mem (h : Chain next link elements) (mem : a ∈ elements) :
    link = some a ∨ ∃ b ∈ elements, next b = some a := by
  induction elements generalizing link with
  | nil => cases mem
  | cons b rest ih =>
    obtain ⟨rfl, tail⟩ := h
    cases mem with
    | head => exact .inl rfl
    | tail _ later =>
      cases ih tail later with
      | inl first => exact .inr ⟨b, List.mem_cons_self, first⟩
      | inr found =>
        obtain ⟨c, mem, linked⟩ := found
        exact .inr ⟨c, List.mem_cons_of_mem b mem, linked⟩

/-- A chain that ends never comes back to an element. -/
theorem nodup (h : Chain next link elements) : elements.Nodup := by
  induction elements generalizing link with
  | nil => exact List.nodup_nil
  | cons a rest ih =>
    obtain ⟨rfl, tail⟩ := h
    refine List.nodup_cons.2 ⟨fun again => ?_, ih tail⟩
    obtain ⟨front, back, split⟩ := List.append_of_mem again
    rw [split] at tail
    have short : Chain next (some a) (a :: back) := of_append tail
    have long : Chain next (some a) (a :: (front ++ a :: back)) := ⟨rfl, tail⟩
    have lengths := congrArg List.length (unique short long)
    simp at lengths
    omega

/-- Only the last element of a chain has no successor. -/
theorem isSome_next_of_mem_dropLast (h : Chain next link elements)
    (mem : a ∈ elements.dropLast) : (next a).isSome := by
  induction elements generalizing link with
  | nil => cases mem
  | cons b rest ih =>
    obtain ⟨rfl, tail⟩ := h
    cases rest with
    | nil => cases mem
    | cons c rest =>
      rw [List.dropLast_cons_of_ne_nil (List.cons_ne_nil c rest), List.mem_cons] at mem
      cases mem with
      | inl same => rw [same, tail.1, Option.isSome_some]
      | inr later => exact ih tail later

/-- On a chain within the bound, searching is searching its elements. -/
theorem findWithin_eq (h : Chain next link elements) (test : α → Bool) {bound : Nat}
    (fits : elements.length ≤ bound) :
    findWithin next test bound link = .ok (elements.find? test) := by
  induction elements generalizing link bound with
  | nil =>
    obtain rfl := h
    cases bound <;> rfl
  | cons a rest ih =>
    obtain ⟨rfl, tail⟩ := h
    cases bound with
    | zero => cases fits
    | succ bound =>
      rw [findWithin, ih tail (Nat.le_of_succ_le_succ fits), List.find?_cons]
      cases test a <;> rfl

/-- On a chain within the bound, listing gives its elements. -/
theorem listWithin_eq (h : Chain next link elements) {bound : Nat}
    (fits : elements.length ≤ bound) : listWithin next bound link = .ok elements := by
  induction elements generalizing link bound with
  | nil =>
    obtain rfl := h
    cases bound <;> rfl
  | cons a rest ih =>
    obtain ⟨rfl, tail⟩ := h
    cases bound with
    | zero => cases fits
    | succ bound =>
      rw [listWithin, ih tail (Nat.le_of_succ_le_succ fits)]
      rfl

/-- A chain whose elements are told apart by an address is within the bound. -/
theorem length_le_chainBound (h : Chain next link elements) (address : α → UInt64)
    (apart : ∀ a b, address a = address b → a = b) : elements.length ≤ chainBound := by
  have nodup : (elements.map fun a => (address a).toNat).Nodup :=
    List.Pairwise.map _ (fun a b ne e => ne (apart a b (UInt64.toNat_inj.1 e))) h.nodup
  have below : (elements.map fun a => (address a).toNat) ⊆ List.range chainBound := fun n hn => by
    obtain ⟨a, _, rfl⟩ := List.mem_map.1 hn
    exact List.mem_range.2 (address a).toNat_lt_size
  simpa using nodup.length_le_of_subset below

end Chain

/-! ## Parts of a chain -/

/-- Following `next` from a link meets exactly the given elements and comes to the
link `stop`. -/
def Leads (next : α → Option α) : Option α → List α → Option α → Prop
  | link, [], stop => link = stop
  | link, a :: rest, stop => link = some a ∧ Leads next (next a) rest stop

namespace Leads

variable {next : α → Option α} {link middle stop : Option α} {front back : List α}

/-- Parts join where one comes to the other. -/
theorem append (h : Leads next link front middle) (h' : Leads next middle back stop) :
    Leads next link (front ++ back) stop := by
  induction front generalizing link with
  | nil =>
    obtain rfl := h
    exact h'
  | cons a front ih => exact ⟨h.1, ih h.2⟩

/-- A part that comes to a chain continues it to the front. -/
theorem chain (h : Leads next link front middle) (h' : Chain next middle back) :
    Chain next link (front ++ back) := by
  induction front generalizing link with
  | nil =>
    obtain rfl := h
    exact h'
  | cons a front ih => exact ⟨h.1, ih h.2⟩

end Leads

end SlabHeap
