import Mathlib.Algebra.Order.BigOperators.Group.Finset
import Mathlib.Algebra.Order.Group.Multiset
import Mathlib.Data.Multiset.UnionInter
import Mathlib.Data.Multiset.ZeroCons
import SlabHeap.Heap
import SlabHeap.Proofs.Runs

/-!
# Plans

What an operation of the heap does to the page source, and with which result, is
written as a `Plan`: ask for a page and go on with the answer, give a page back,
or be done.  A plan is pure data, and it does not know how the source chooses its
answers.

A `PageModel` says what is known of a source.  It has states of its own, the
`View`, and says which answers a view allows.  The pages handed out by the source
are a multiset, and what the source keeps in memory is outside of them.  So a
client may change the pages it holds (`PageModel.congr`), and the source leaves
them as they are (`PageModel.take`, `PageModel.give`).

`Follows` is the statement that an operation carries out a plan: it ends without
a fault, and plan and operation end in results and states that are related.
`Follows.bind` composes such statements.
-/

namespace SlabHeap

/-- What is asked of the page source on the way to a result. -/
inductive Plan (α : Type) where
  /-- Nothing more is asked. -/
  | done (result : α)
  /-- Ask for a page. -/
  | take (next : Except AllocError UInt64 → Plan α)
  /-- Give a page back. -/
  | give (page : UInt64) (next : Plan α)

namespace Plan

variable {α β : Type}

/-- One plan after another. -/
def bind : Plan α → (α → Plan β) → Plan β
  | done a, rest => rest a
  | take next, rest => take fun answer => (next answer).bind rest
  | give page next, rest => give page (next.bind rest)

instance : Monad Plan where
  pure := done
  bind := bind

instance : LawfulMonad Plan := by
  refine LawfulMonad.mk' Plan ?_ (fun _ _ => rfl) ?_
  · intro α plan
    induction plan with
    | done a => rfl
    | take next ih => exact congrArg take (funext ih)
    | give page next ih => exact congrArg (give page) ih
  · intro α β γ plan first second
    induction plan with
    | done a => rfl
    | take next ih => exact congrArg take (funext ih)
    | give page next ih => exact congrArg (give page) ih

/-- Every result that the plan can have satisfies a predicate. -/
def Always (holds : α → Prop) : Plan α → Prop
  | done a => holds a
  | take next => ∀ answer, (next answer).Always holds
  | give _ next => next.Always holds

end Plan

/-- What an answer grants. -/
def granted : Except AllocError UInt64 → Multiset UInt64
  | .ok page => {page}
  | .error _ => 0

/-- The addresses of some pages. -/
def PageSize.covered (size : PageSize) (pages : Multiset UInt64) : Set UInt64 :=
  {address | size.pageOf address ∈ pages}

/-- What is known of a page source. -/
structure PageModel (size : PageSize) (σ : Type) [PageSource σ] where
  /-- What is known of a state. -/
  View : Type
  /-- A view describes the state of a source that has handed out the given
  pages. -/
  Describes : View → Multiset UInt64 → σ → Memory → Prop
  /-- A request can be answered so, and leads to another view. -/
  Take : View → Except AllocError UInt64 → View → Prop
  /-- Giving a page back leads to another view. -/
  Give : View → UInt64 → View → Prop
  nodup {view held source memory} : Describes view held source memory → held.Nodup
  aligned {view held source memory} : Describes view held source memory →
    ∀ page ∈ held, size.Aligned page
  nonzero {view held source memory} : Describes view held source memory → ∀ page ∈ held, page ≠ 0
  congr {view held source memory memory'} : Describes view held source memory →
    Set.EqOn memory'.byte memory.byte (size.covered held)ᶜ → Describes view held source memory'
  take {view held source memory} : Describes view held source memory →
    ∃ answer view' source' memory',
      PageSource.takePage source memory = .ok (answer, source', memory') ∧
      Take view answer view' ∧
      Set.EqOn memory'.byte memory.byte (size.covered held) ∧
      Describes view' (granted answer + held) source' memory'
  give {view page held source memory} : Describes view (page ::ₘ held) source memory →
    ∃ view' source' memory', PageSource.givePage page source memory = .ok (source', memory') ∧
      Give view page view' ∧
      Set.EqOn memory'.byte memory.byte (size.covered held) ∧
      Describes view' held source' memory'

/-- A page source may change by itself, as long as what it handed out stays handed out. -/
def PageModel.Shifts {size : PageSize} {σ : Type} [PageSource σ] (model : PageModel size σ)
    (source : σ) (memory : Memory) (source' : σ) (memory' : Memory) : Prop :=
  ∀ view held, model.Describes view held source memory →
    (∃ view', model.Describes view' held source' memory') ∧
      Set.EqOn memory'.byte memory.byte (size.covered held)

/-! ## Pages of several owners -/

section Owners

variable {ι α : Type} [Fintype ι] [DecidableEq ι] (pages : α → Multiset UInt64) (views : ι → α)
  (i : ι)

/-- The pages of all owners but one. -/
def pagesOfOthers : Multiset UInt64 := ∑ j ∈ Finset.univ.erase i, pages (views j)

theorem sum_pages_eq : ∑ j, pages (views j) = pages (views i) + pagesOfOthers pages views i :=
  (Finset.add_sum_erase _ (fun j => pages (views j)) (Finset.mem_univ i)).symm

theorem pagesOfOthers_update (view : α) :
    pagesOfOthers pages (Function.update views i view) i = pagesOfOthers pages views i := by
  refine Finset.sum_congr rfl fun j mem => ?_
  rw [Function.update_of_ne (Finset.ne_of_mem_erase mem)]

theorem sum_pages_update (view : α) :
    ∑ j, pages (Function.update views i view j) = pages view + pagesOfOthers pages views i := by
  rw [sum_pages_eq pages _ i, Function.update_self, pagesOfOthers_update]

variable {i} in
theorem pages_le_pagesOfOthers {j : ι} (differ : j ≠ i) :
    pages (views j) ≤ pagesOfOthers pages views i :=
  Finset.single_le_sum (fun _ _ => Multiset.zero_le _)
    (Finset.mem_erase.2 ⟨differ, Finset.mem_univ j⟩)

end Owners

theorem PageSize.covered_mono {size : PageSize} {pages others : Multiset UInt64}
    (le : pages ≤ others) : size.covered pages ⊆ size.covered others :=
  fun _ mem => Multiset.mem_of_le le mem

/-! ## Steps of operations -/

/-- An operation that ends is followed by the next one. -/
theorem bind_ok {ε σ α β : Type} {first : EStateM ε σ α} {rest : α → EStateM ε σ β} {s s' : σ}
    {a : α} (h : first s = .ok a s') : (first >>= rest) s = rest a s' := by
  simp only [Bind.bind, EStateM.bind, h]

/-- An operation that stops at a fault is not followed by another. -/
theorem bind_error {ε σ α β : Type} {first : EStateM ε σ α} {rest : α → EStateM ε σ β} {s s' : σ}
    {fault : ε} (h : first s = .error fault s') : (first >>= rest) s = .error fault s' := by
  simp only [Bind.bind, EStateM.bind, h]

/-- Looking at the state ends and leaves it. -/
theorem get_ok {ε σ : Type} {s : σ} : (get : EStateM ε σ σ) s = .ok s s := rfl

/-- The answer of a computation that ends. -/
theorem run'_ok {ε σ α : Type} {operation : EStateM ε σ α} {s s' : σ} {a : α}
    (h : operation s = .ok a s') : operation.run' s = some a := by
  show (match operation s with
    | .ok a _ => some a
    | .error _ _ => none) = some a
  rw [h]

/-- A computation that goes on and ends. -/
theorem exists_ok_of_bind {ε σ α β : Type} {first : EStateM ε σ α} {rest : α → EStateM ε σ β}
    {s s' : σ} {b : β} (h : (first >>= rest) s = .ok b s') :
    ∃ a between, first s = .ok a between ∧ rest a between = .ok b s' := by
  simp only [Bind.bind, EStateM.bind] at h
  split at h
  · exact ⟨_, _, ‹_›, h⟩
  · cases h

/-- A computation with an answer ends. -/
theorem exists_ok_of_run' {ε σ α : Type} {operation : EStateM ε σ α} {s : σ} {a : α}
    (h : operation.run' s = some a) : ∃ s', operation s = .ok a s' := by
  cases ended : operation s with
  | ok b s' =>
    rw [run'_ok ended] at h
    cases h
    exact ⟨s', rfl⟩
  | error fault s' =>
    change (match operation s with
      | .ok a _ => some a
      | .error _ _ => none) = some a at h
    rw [ended] at h
    cases h

section Vector

variable {α : Type} {n : Nat} (elements : Vector α n) {i j : Fin n}

theorem get_set_self (i : Fin n) (a : α) : (elements.set i a i.isLt).get i = a :=
  Vector.getElem_set_self i.isLt

theorem get_set_of_ne (a : α) (differ : j ≠ i) :
    (elements.set i a i.isLt).get j = elements.get j :=
  Vector.getElem_set_ne i.isLt j.isLt fun same => differ (Fin.ext same).symm

theorem set_get_self (i : Fin n) : elements.set i (elements.get i) i.isLt = elements :=
  Vector.set_getElem_self i.isLt

end Vector

namespace HeapM

variable {σ α : Type} {heap : Heap σ} {a : α}

theorem check_of_ok {answer : Except Fault α} (h : answer = .ok a) :
    check answer heap = .ok a heap := by
  rw [h, check_ok]

theorem memory_ok : memory heap = .ok heap.memory heap := rfl

theorem report_ok (event : Event) :
    report event heap = .ok () { heap with journal := event :: heap.journal } := rfl

theorem inMemory_ok {operation : Memory → Except Fault (α × Memory)} {memory : Memory}
    (h : operation heap.memory = .ok (a, memory)) :
    inMemory operation heap = .ok a { heap with memory } := by
  rw [inMemory_eq, h]

theorem inMemory_error {operation : Memory → Except Fault (α × Memory)} {fault : Fault}
    (h : operation heap.memory = .error fault) :
    inMemory operation heap = .error fault heap := by
  rw [inMemory_eq, h]

theorem takePage_ok [PageSource σ] {answer : Except AllocError UInt64} {source : σ}
    {memory : Memory}
    (h : PageSource.takePage heap.source heap.memory = .ok (answer, source, memory)) :
    takePage heap = .ok answer { heap with source, memory } := by
  rw [takePage_eq, h]

theorem givePage_ok [PageSource σ] {page : UInt64} {source : σ} {memory : Memory}
    (h : PageSource.givePage page heap.source heap.memory = .ok (source, memory)) :
    givePage page heap = .ok () { heap with source, memory } := by
  rw [givePage_eq, h]

end HeapM

section Runs

variable {size : PageSize} {σ α β γ : Type} [PageSource σ] (model : PageModel size σ)

/-- The plan can end with a result and a view. -/
def Plan.Runs : Plan α → model.View → α → model.View → Prop
  | .done a, view, b, view' => b = a ∧ view' = view
  | .take next, view, b, view' =>
    ∃ answer middle, model.Take view answer middle ∧ (next answer).Runs middle b view'
  | .give page next, view, b, view' =>
    ∃ middle, model.Give view page middle ∧ next.Runs middle b view'

variable {model}

theorem Plan.Runs.bind {plan : Plan α} {rest : α → Plan β} {view view' view'' : model.View} {a : α}
    {b : β} (first : plan.Runs model view a view') (second : (rest a).Runs model view' b view'') :
    (plan >>= rest).Runs model view b view'' := by
  induction plan generalizing view with
  | done a =>
    obtain ⟨rfl, rfl⟩ := first
    exact second
  | take next ih =>
    obtain ⟨answer, middle, allowed, run⟩ := first
    exact ⟨answer, middle, allowed, ih answer run⟩
  | give page next ih =>
    obtain ⟨middle, allowed, run⟩ := first
    exact ⟨middle, allowed, ih run⟩

/-- A run of one plan after another is a run of the one and then of the other. -/
theorem Plan.Runs.exists_of_bind {plan : Plan α} {rest : α → Plan β} {view view'' : model.View}
    {b : β} (run : (plan >>= rest).Runs model view b view'') :
    ∃ a view', plan.Runs model view a view' ∧ (rest a).Runs model view' b view'' := by
  induction plan generalizing view with
  | done a => exact ⟨a, view, ⟨rfl, rfl⟩, run⟩
  | take next ih =>
    obtain ⟨answer, middle, allowed, run⟩ := run
    obtain ⟨a, view', first, second⟩ := ih answer run
    exact ⟨a, view', ⟨answer, middle, allowed, first⟩, second⟩
  | give page next ih =>
    obtain ⟨middle, allowed, run⟩ := run
    obtain ⟨a, view', first, second⟩ := ih run
    exact ⟨a, view', ⟨middle, allowed, first⟩, second⟩

/-- What a plan always has holds of each of its runs. -/
theorem Plan.Always.of_runs {holds : α → Prop} {plan : Plan α} {view view' : model.View} {a : α}
    (h : plan.Always holds) (run : plan.Runs model view a view') : holds a := by
  induction plan generalizing view with
  | done b =>
    obtain ⟨rfl, rfl⟩ := run
    exact h
  | take next ih =>
    obtain ⟨answer, middle, _, run⟩ := run
    exact ih answer (h answer) run
  | give page next ih =>
    obtain ⟨middle, _, run⟩ := run
    exact ih h run

variable (model)

/-- The operation carries out the plan, and both end as `post` says. -/
def Follows (operation : HeapM σ α) (plan : Plan β) (heap : Heap σ) (view : model.View)
    (post : α → β → Heap σ → model.View → Prop) : Prop :=
  ∃ a heap' b view', operation heap = .ok a heap' ∧ plan.Runs model view b view' ∧
    post a b heap' view'

variable {model} {heap heap' : Heap σ} {view : model.View}

namespace Follows

variable {operation : HeapM σ α} {plan : Plan β} {post post' : α → β → Heap σ → model.View → Prop}

/-- The last step, which the plan does not mention. -/
theorem last {a : α} {b : β} (ends : operation heap = .ok a heap') (h : post a b heap' view) :
    Follows model operation (pure b) heap view post :=
  ⟨a, heap', b, view, ends, ⟨rfl, rfl⟩, h⟩

/-- Nothing is left to do. -/
theorem done {a : α} {b : β} (h : post a b heap view) :
    Follows model (pure a) (pure b) heap view post :=
  last rfl h

theorem mono (h : Follows model operation plan heap view post)
    (le : ∀ a b heap' view', post a b heap' view' → post' a b heap' view') :
    Follows model operation plan heap view post' := by
  obtain ⟨a, heap', b, view', ends, run, related⟩ := h
  exact ⟨a, heap', b, view', ends, run, le a b heap' view' related⟩

/-- One operation after another carries out one plan after another. -/
theorem bind {rest : α → HeapM σ γ} {δ : Type} {rest' : β → Plan δ}
    {final : γ → δ → Heap σ → model.View → Prop}
    (h : Follows model operation plan heap view post)
    (after : ∀ a b heap' view', post a b heap' view' →
      Follows model (rest a) (rest' b) heap' view' final) :
    Follows model (operation >>= rest) (plan >>= rest') heap view final := by
  obtain ⟨a, heap', b, view', ends, run, related⟩ := h
  obtain ⟨c, heap'', d, view'', ends', run', related'⟩ := after a b heap' view' related
  refine ⟨c, heap'', d, view'', ?_, run.bind run', related'⟩
  rw [bind_ok ends]
  exact ends'

/-- What a plan always has is known in the end. -/
theorem always {holds : β → Prop} (h : Follows model operation plan heap view post)
    (always : plan.Always holds) : Follows model operation plan heap view
      fun a b heap' view' => post a b heap' view' ∧ holds b := by
  obtain ⟨a, heap', b, view', ends, run, related⟩ := h
  exact ⟨a, heap', b, view', ends, run, related, always.of_runs run⟩

/-- A step that the plan does not mention. -/
theorem step {rest : α → HeapM σ γ} {δ : Type} {plan' : Plan δ} {a : α}
    {final : γ → δ → Heap σ → model.View → Prop} (ends : operation heap = .ok a heap')
    (after : Follows model (rest a) plan' heap' view final) :
    Follows model (operation >>= rest) plan' heap view final := by
  obtain ⟨c, heap'', d, view'', ends', run, related⟩ := after
  refine ⟨c, heap'', d, view'', ?_, run, related⟩
  rw [bind_ok ends]
  exact ends'

end Follows

end Runs

end SlabHeap
