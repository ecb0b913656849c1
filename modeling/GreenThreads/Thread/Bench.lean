import GreenThreads.Thread.Action

/-!
# GreenThreads.Thread.Bench

A single descriptor with the host's mappings, so that the actions on it can
be watched one by one together with the number of stacks in use.
-/

namespace GreenThreads.Thread

/-- A descriptor and the host's mappings. -/
structure Bench where
  thread : Thread
  pool : StackPool
  deriving Repr

namespace Bench

/-- A descriptor on the host's stack. -/
def hosted (id : ThreadId) : Bench := ⟨Thread.hosted id, {}⟩

/-- A descriptor on a new stack of at least `bytes` bytes. -/
def create (id : ThreadId) (arg : Word) (bytes : Nat) : Except MapFailure Bench :=
  match StackPool.map bytes {} with
  | (.error cause, _) => .error cause
  | (.ok stack, pool) => .ok ⟨Thread.create id ⟨0, .native⟩ arg stack, pool⟩

/-- Carry out an action; a stack that it gives up goes back to the host. -/
def step (b : Bench) (a : Action) : Effect × Bench :=
  let e := b.thread.act a
  (e, ⟨e.thread, b.pool.release e.released⟩)

/-- Give up the descriptor. -/
def clear (b : Bench) : StackPool := b.pool.release b.thread.stack?.toList

end Bench

end GreenThreads.Thread
