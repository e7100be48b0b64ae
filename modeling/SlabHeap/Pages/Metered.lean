import SlabHeap.Pages.Pool

/-!
# Metered pools

A page pool under observation.  It counts the requests made to it and notes the
pages given back, and it can be told to refuse: after a number of requests that
still go to the pool, all later ones fail with a given error.  A request that
goes to the pool uses up one of that number whether or not the pool has a page.
-/

namespace SlabHeap

/-- An order to refuse requests. -/
structure Refusal where
  /-- How many requests are still let through. -/
  after : Nat
  /-- What later requests are told. -/
  error : AllocError
  deriving DecidableEq, Repr

/-- A page pool that counts, notes and refuses. -/
structure MeteredPool (size : PageSize) where
  /-- The pool that serves the requests. -/
  pool : PagePool size := {}
  /-- The requests made so far. -/
  requests : Nat := 0
  /-- The pages given back, the latest first. -/
  released : List UInt64 := []
  /-- The order to refuse in force. -/
  refusal : Option Refusal := none
  deriving DecidableEq, Repr

namespace MeteredPool

variable {size : PageSize}

/-- Pass a request on to the pool. -/
def passOn (metered : MeteredPool size) (memory : Memory) :
    Except Fault (Except AllocError UInt64 × MeteredPool size × Memory) := do
  let (answer, pool, memory) ← PageSource.takePage metered.pool memory
  return (answer, { metered with pool }, memory)

instance : PageSource (MeteredPool size) where
  takePage metered memory :=
    let counted := { metered with requests := metered.requests + 1 }
    match metered.refusal with
    | none => counted.passOn memory
    | some ⟨0, error⟩ => return (.error error, counted, memory)
    | some ⟨left + 1, error⟩ => { counted with refusal := some ⟨left, error⟩ }.passOn memory
  givePage page metered memory := do
    let (pool, memory) ← PageSource.givePage page metered.pool memory
    return ({ metered with pool, released := page :: metered.released }, memory)

end MeteredPool

end SlabHeap
