import Std.Data.TreeMap.Lemmas
import SlabHeap.Fault

/-!
# Memory

Most bookkeeping of the heap is kept in the memory that it hands out: slab headers
and tables, the links of slab lists, and the links of free pages.  So memory is
modelled by its bytes.  The caches that live in slots are not among them: they are
kept by address in a store of their own, and writing one writes no byte.

There is one byte for each 64-bit address, zero until it is written.  Runs of bytes
and addresses of fields wrap at the top of the address space, as the hardware's do.
Words of 64 bits are stored least significant byte first.

Everything is read through `Memory.byte`.  The laws say what a write does to
that view: `byte_setByte` for one byte, `byte_setBytes` for a run.  The position
of an address in a run is the wrapping difference to the start of the run.  What
was written reads back (`bytesAt_setBytes_self`, `word_setWord_self`), and a run
keeps its bytes under a write to a run apart from it
(`bytesAt_setBytes_of_apart`).
-/

namespace SlabHeap

/-- The content of memory.  An address without an entry holds zero. -/
structure Memory where
  /-- The bytes written so far. -/
  written : Std.TreeMap UInt64 UInt8 := ∅

namespace Memory

/-! ## Bytes -/

/-- Memory to which nothing has been written. -/
def zeroed : Memory := {}

/-- The byte at an address. -/
def byte (memory : Memory) (address : UInt64) : UInt8 := memory.written.getD address 0

/-- Memory after one byte was written. -/
def setByte (memory : Memory) (address : UInt64) (value : UInt8) : Memory :=
  ⟨memory.written.insert address value⟩

/-- The run of bytes that starts at an address. -/
def bytesAt (memory : Memory) (address : UInt64) (count : Nat) : List UInt8 :=
  (List.range count).map fun i => memory.byte (address + UInt64.ofNat i)

/-- Memory after a run of bytes was written, the first byte first. -/
def setBytes (memory : Memory) (address : UInt64) : List UInt8 → Memory
  | [] => memory
  | value :: rest => (memory.setByte address value).setBytes (address + 1) rest

/-- Memory after one byte was written to each address of a run. -/
def fill (memory : Memory) (address : UInt64) (value : UInt8) (count : Nat) : Memory :=
  memory.setBytes address (List.replicate count value)

/-! ## Words -/

/-- The bytes of a word, least significant first. -/
def bytesOfWord (value : UInt64) : List UInt8 :=
  [value.toUInt8, (value >>> 8).toUInt8, (value >>> 16).toUInt8, (value >>> 24).toUInt8,
   (value >>> 32).toUInt8, (value >>> 40).toUInt8, (value >>> 48).toUInt8, (value >>> 56).toUInt8]

/-- The word that a list of bytes stands for, least significant first. -/
def wordOfBytes (bytes : List UInt8) : UInt64 :=
  UInt64.ofNat (bytes.foldr (fun byte rest => byte.toNat + 256 * rest) 0)

/-- The word at an address. -/
def word (memory : Memory) (address : UInt64) : UInt64 := wordOfBytes (memory.bytesAt address 8)

/-- Memory after a word was written. -/
def setWord (memory : Memory) (address value : UInt64) : Memory :=
  memory.setBytes address (bytesOfWord value)

/-! ## Links

A link is a word that holds an address, where zero means that there is none.
-/

/-- The address a word links to. -/
def linkOfWord (value : UInt64) : Option UInt64 := if value = 0 then none else some value

/-- The word that links to an address. -/
def wordOfLink (link : Option UInt64) : UInt64 := link.getD 0

/-! ## Runs that do not meet -/

/-- The run of `m` bytes at `a` and the run of `n` bytes at `b` have no address
in common.  Both runs may wrap. -/
def Apart (a : UInt64) (m : Nat) (b : UInt64) (n : Nat) : Prop :=
  m ≤ (b - a).toNat ∧ n ≤ (a - b).toNat

theorem Apart.symm {a b : UInt64} {m n : Nat} (h : Apart a m b n) : Apart b n a m := ⟨h.2, h.1⟩

/-- A run does not meet what lies inside a run that it does not meet. -/
theorem Apart.of_inside {a b i : UInt64} {m n k : Nat} (h : Apart a m b n)
    (inside : i.toNat + k ≤ n) (nonempty : 0 < k) : Apart a m (b + i) k := by
  obtain ⟨forth, back⟩ := h
  have le : i ≤ a - b := UInt64.le_iff_toNat_le.2 (by omega)
  have shorter : a - (b + i) = a - b - i := by grind
  have around : b - a = -(a - b) := by grind
  have longer : b + i - a = -(a - b - i) := by grind
  have rest := UInt64.toNat_sub_of_le _ _ le
  have bound := (a - b).toNat_lt
  rw [around, UInt64.toNat_neg, UInt64.size] at forth
  refine ⟨?_, ?_⟩
  · rw [longer, UInt64.toNat_neg, UInt64.size, rest]
    omega
  · rw [shorter, rest]
    omega

/-- Runs at different offsets from one address do not meet if they do not meet
as runs of offsets. -/
theorem apart_offsets {base i j : UInt64} {m n : Nat} (lower : i.toNat + m ≤ j.toNat)
    (upper : j.toNat + n ≤ i.toNat + UInt64.size) (nonempty : i ≠ j) :
    Apart (base + i) m (base + j) n := by
  rw [UInt64.size] at upper
  have le : i ≤ j := UInt64.le_iff_toNat_le.2 (by omega)
  have differ : i.toNat ≠ j.toNat := fun e => nonempty (UInt64.toNat_inj.1 e)
  have forth : base + j - (base + i) = j - i := by grind
  have back : base + i - (base + j) = i - j := by grind
  refine ⟨?_, ?_⟩
  · rw [forth, UInt64.toNat_sub_of_le _ _ le]
    omega
  · rw [back, UInt64.toNat_sub]
    have := i.toNat_lt
    have := j.toNat_lt
    omega

/-- A run does not meet a run at an offset behind its end. -/
theorem apart_offset {base j : UInt64} {m n : Nat} (lower : m ≤ j.toNat)
    (upper : j.toNat + n ≤ UInt64.size) (nonempty : j ≠ 0) : Apart base m (base + j) n := by
  rw [← UInt64.add_zero base, UInt64.add_assoc, UInt64.zero_add]
  apply apart_offsets _ (Nat.le_trans upper (Nat.le_add_left _ _)) nonempty.symm
  rwa [UInt64.toNat_zero, Nat.zero_add]

/-! ## Laws -/

theorem byte_setByte (memory : Memory) (address other : UInt64) (value : UInt8) :
    (memory.setByte address value).byte other =
      if other = address then value else memory.byte other := by
  simp [byte, setByte, Std.TreeMap.getD_insert, eq_comm (a := other)]

theorem setBytes_singleton (memory : Memory) (address : UInt64) (value : UInt8) :
    memory.setBytes address [value] = memory.setByte address value := rfl

/-- One step along a run shortens the position of an address in it by one. -/
theorem toNat_sub_succ {address other : UInt64} (h : other ≠ address) :
    (other - address).toNat = (other - (address + 1)).toNat + 1 := by
  have step : other - address = other - (address + 1) + 1 := by grind
  have top : (other - (address + 1)).toNat + 1 < 2 ^ 64 := by
    have bound := (other - (address + 1)).toNat_lt
    have full : (other - (address + 1)).toNat ≠ 2 ^ 64 - 1 := by
      intro e
      apply h
      have zero : other - address = 0 := by
        rw [step, ← UInt64.toNat_inj, UInt64.toNat_add, e]
        rfl
      rw [← UInt64.sub_add_cancel other address, zero, UInt64.zero_add]
    omega
  rw [step, UInt64.toNat_add, UInt64.toNat_one, Nat.mod_eq_of_lt top]

/-- A write of a run changes the addresses of the run, each to the byte at its
position, and no other. -/
theorem byte_setBytes (memory : Memory) (address other : UInt64) (values : List UInt8)
    (h : values.length ≤ UInt64.size) :
    (memory.setBytes address values).byte other =
      (values[(other - address).toNat]?).getD (memory.byte other) := by
  rw [UInt64.size] at h
  induction values generalizing memory address with
  | nil => simp [setBytes]
  | cons value rest ih =>
    simp only [List.length_cons] at h
    rw [setBytes, ih _ _ (by omega), byte_setByte]
    split
    · rename_i same
      subst same
      have last : (other - (other + 1)).toNat = 2 ^ 64 - 1 := by
        rw [show other - (other + 1) = -1 by grind]
        rfl
      rw [last, UInt64.sub_self, List.getElem?_eq_none (by omega)]
      rfl
    · rename_i differ
      rw [toNat_sub_succ differ, List.getElem?_cons_succ]

/-- A byte outside a run is not changed by a write to the run. -/
theorem byte_setBytes_of_le (memory : Memory) (address other : UInt64) (values : List UInt8)
    (h : values.length ≤ (other - address).toNat) :
    (memory.setBytes address values).byte other = memory.byte other := by
  have bound := (other - address).toNat_lt_size
  rw [byte_setBytes _ _ _ _ (by omega), List.getElem?_eq_none h]
  rfl

/-- A byte is not changed by a write to a run that it does not meet. -/
theorem byte_setBytes_of_apart (memory : Memory) {a b : UInt64} {values : List UInt8}
    (h : Apart a values.length b 1) : (memory.setBytes a values).byte b = memory.byte b :=
  byte_setBytes_of_le memory a b values h.1

@[simp] theorem length_bytesAt (memory : Memory) (address : UInt64) (count : Nat) :
    (memory.bytesAt address count).length = count := by
  simp [bytesAt]

/-- A run that was written reads back. -/
theorem bytesAt_setBytes_self (memory : Memory) (address : UInt64) (values : List UInt8)
    (h : values.length ≤ UInt64.size) :
    (memory.setBytes address values).bytesAt address values.length = values := by
  apply List.ext_getElem (by simp)
  intro i _ hi
  have position : (address + UInt64.ofNat i - address).toNat = i := by
    rw [show address + UInt64.ofNat i - address = UInt64.ofNat i by grind, UInt64.toNat_ofNat',
      Nat.mod_eq_of_lt (Nat.lt_of_lt_of_le (by simpa using hi) h)]
  simp only [bytesAt, List.getElem_map, List.getElem_range]
  rw [byte_setBytes _ _ _ _ h, position, List.getElem?_eq_getElem hi]
  rfl

/-- A run is not changed by a write to another run that it does not meet. -/
theorem bytesAt_setBytes_of_apart (memory : Memory) {a b : UInt64} {values : List UInt8}
    {count : Nat} (h : Apart a values.length b count) :
    (memory.setBytes a values).bytesAt b count = memory.bytesAt b count := by
  apply List.ext_getElem (by simp)
  intro i hi _
  have inside : i < count := by simpa using hi
  simp only [bytesAt, List.getElem_map, List.getElem_range]
  apply byte_setBytes_of_le
  obtain ⟨forth, back⟩ := h
  have move : b + UInt64.ofNat i - a = b - a + UInt64.ofNat i := by grind
  have around : a - b = -(b - a) := by grind
  have bound := (b - a).toNat_lt
  rw [around, UInt64.toNat_neg, UInt64.size] at back
  rw [move, UInt64.toNat_add, UInt64.toNat_ofNat']
  omega

@[simp] theorem length_bytesOfWord (value : UInt64) : (bytesOfWord value).length = 8 := rfl

/-- The bytes of a word stand for it. -/
@[simp] theorem wordOfBytes_bytesOfWord (value : UInt64) :
    wordOfBytes (bytesOfWord value) = value := by
  rw [← UInt64.toNat_inj]
  have bound := value.toNat_lt
  simp only [wordOfBytes, bytesOfWord, List.foldr_cons, List.foldr_nil, UInt64.toNat_toUInt8,
    UInt64.toNat_shiftRight, Nat.shiftRight_eq_div_pow, UInt64.toNat_ofNat]
  simp
  omega

/-- A word that was written reads back. -/
@[simp] theorem word_setWord_self (memory : Memory) (address value : UInt64) :
    (memory.setWord address value).word address = value := by
  have back := bytesAt_setBytes_self memory address (bytesOfWord value) (by simp [UInt64.size])
  rw [length_bytesOfWord] at back
  rw [word, setWord, back, wordOfBytes_bytesOfWord]

/-- A word is not changed by a write to a run that it does not meet. -/
theorem word_setBytes_of_apart (memory : Memory) {a b : UInt64} {values : List UInt8}
    (h : Apart a values.length b 8) : (memory.setBytes a values).word b = memory.word b := by
  rw [word, bytesAt_setBytes_of_apart memory h, word]

/-- A word is not changed by a write to a word that it does not meet. -/
theorem word_setWord_of_apart (memory : Memory) {a b value : UInt64} (h : Apart a 8 b 8) :
    (memory.setWord a value).word b = memory.word b :=
  word_setBytes_of_apart memory h

/-- A byte is not changed by a write to a word that it does not meet. -/
theorem byte_setWord_of_apart (memory : Memory) {a b value : UInt64} (h : Apart a 8 b 1) :
    (memory.setWord a value).byte b = memory.byte b :=
  byte_setBytes_of_apart memory h

/-- A word is not changed by a write to a byte that it does not meet. -/
theorem word_setByte_of_apart (memory : Memory) {a b : UInt64} {value : UInt8}
    (h : Apart a 1 b 8) : (memory.setByte a value).word b = memory.word b := by
  rw [← setBytes_singleton]
  exact word_setBytes_of_apart memory h

@[simp] theorem byte_setByte_self (memory : Memory) (a : UInt64) (value : UInt8) :
    (memory.setByte a value).byte a = value := by
  rw [byte_setByte, if_pos rfl]

/-- A byte is not changed by a write to another one. -/
theorem byte_setByte_of_apart (memory : Memory) {a b : UInt64} {value : UInt8}
    (h : Apart a 1 b 1) : (memory.setByte a value).byte b = memory.byte b := by
  rw [← setBytes_singleton]
  exact byte_setBytes_of_apart memory h

/-- A link survives being written as a word, unless it links to address zero. -/
theorem linkOfWord_wordOfLink {link : Option UInt64} (h : link ≠ some 0) :
    linkOfWord (wordOfLink link) = link := by
  cases link with
  | none => rfl
  | some address =>
    have nonzero : address ≠ 0 := fun e => h (by rw [e])
    simp [linkOfWord, wordOfLink, nonzero]

end Memory

end SlabHeap
