import GreenThreads.Scheduler.Operation
import GreenThreads.Thread.Action

/-!
# GreenThreads.Scheduler.Bench

A scheduler driven by hand, one step after another, without any thread ever
being switched to.

The bench keeps the host's books: it maps the stacks of new threads and gives
back every stack that an operation gives up.  A thread popped from the ready
queue is held outside the scheduler until it is added back.  A step may also
reach into the scheduler and act on a single descriptor in its place.
-/

namespace GreenThreads.Scheduler

/-- A scheduler, the threads held outside it, and the host's mappings. -/
structure Bench where
  scheduler : Scheduler := {}
  held : List Thread := []
  pool : StackPool := {}
  deriving Repr

namespace Bench

/-- Something done at the bench. -/
inductive Step where
  | operation (operation : Operation)
  /-- Queue a new thread on a new stack of the scheduler's size. -/
  | spawn (arg : Word)
  | stackSize
  | readyIsEmpty
  | currentId
  | isRunning (id : ThreadId)
  | find (id : ThreadId)
  | popRunnable
  | addHeld
  | debug
  | onCurrent (action : Thread.Action)
  | onReady (index : Nat) (action : Thread.Action)
  | onZombie (index : Nat) (action : Thread.Action)
  deriving DecidableEq, Repr

/-- What was seen. -/
inductive Answer where
  | done
  | operation (answer : Scheduler.Answer)
  | action (answer : Thread.Answer)
  | id (id : Option ThreadId)
  | size (bytes : Nat)
  | flag (value : Bool)
  | thread (found : Option Thread)
  | hostFailed (error : HostError)
  | absent
  deriving DecidableEq, Repr

/-- The outcome of a step. -/
structure Effect where
  answer : Answer
  bench : Bench
  notices : List Notice := []
  deriving Repr

/-- The bench with a scheduler that has given up stacks. -/
def update (s : Scheduler) (released : List Stack) (b : Bench) : Bench :=
  { b with scheduler := s, pool := b.pool.release released }

/-- Carry out an operation on the scheduler. -/
def operate (b : Bench) (o : Operation) : Effect :=
  let e := b.scheduler.act o
  { answer := .operation e.answer, bench := b.update e.scheduler e.released }

/-- Carry out an action on the descriptor in some place; `put` puts it back. -/
def act (b : Bench) (place : Option Thread) (put : Thread → Scheduler) (a : Thread.Action) :
    Effect :=
  match place with
  | none => { answer := .absent, bench := b }
  | some t =>
    let e := t.act a
    { answer := .action e.answer
      bench := b.update (put e.thread) e.released
      notices := e.notices }

/-- Queue a new thread on a stack of its own.  If the host has none to give, an
identity is used up all the same. -/
def spawn (b : Bench) (arg : Word) : Except Overflow Effect :=
  match b.pool.map b.scheduler.stackSize with
  | (.error (.overflow o), _) => .error o
  | (.error (.host e), pool) =>
    .ok { ({ b with pool }.operate .allocateId) with answer := .hostFailed e }
  | (.ok stack, pool) => .ok ({ b with pool }.operate (.spawn ⟨0, .native⟩ arg stack))

/-- Carry out one step.  Only a stack whose size does not fit a machine word
stops the bench. -/
def step (b : Bench) : Step → Except Overflow Effect
  | .operation o => .ok (b.operate o)
  | .spawn arg => b.spawn arg
  | .stackSize => .ok { answer := .size b.scheduler.stackSize, bench := b }
  | .readyIsEmpty => .ok { answer := .flag b.scheduler.ready.isEmpty, bench := b }
  | .currentId => .ok { answer := .id (some b.scheduler.currentId), bench := b }
  | .isRunning id => .ok { answer := .flag (b.scheduler.isRunning id), bench := b }
  | .find id => .ok { answer := .thread (b.scheduler.find? id), bench := b }
  | .popRunnable =>
    let (popped, s) := b.scheduler.popRunnable
    .ok
      { answer := .id (popped.map Thread.id)
        bench := { b with scheduler := s, held := b.held ++ popped.toList } }
  | .addHeld =>
    match b.held with
    | [] => .ok { answer := .id none, bench := b }
    | t :: held =>
      .ok { answer := .id (some t.id), bench := { b with scheduler := b.scheduler.add t, held } }
  | .debug => .ok { answer := .done, bench := b, notices := b.scheduler.notices }
  | .onCurrent a =>
    .ok (b.act b.scheduler.current (fun t => { b.scheduler with current := some t }) a)
  | .onReady index a =>
    .ok (b.act b.scheduler.ready[index]?
      (fun t => { b.scheduler with ready := b.scheduler.ready.set index t }) a)
  | .onZombie index a =>
    .ok (b.act b.scheduler.zombies[index]?
      (fun t => { b.scheduler with zombies := b.scheduler.zombies.set index t }) a)

/-- Give up every thread and every stack. -/
def clear (b : Bench) : Bench where
  pool := b.pool.release
    ((b.scheduler.threads ++ b.held).filterMap Thread.stack? ++ b.scheduler.retired)

end Bench

end GreenThreads.Scheduler
