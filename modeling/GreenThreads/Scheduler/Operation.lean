import GreenThreads.Scheduler

/-!
# GreenThreads.Scheduler.Operation

Everything that changes a scheduler, as data, so that a history of a scheduler
is a list of operations.

An operation answers, changes the scheduler, and may give up stacks.  One that
is refused leaves the scheduler as it was, with one exception: ending a wait
forgets whom the current thread waited for even if that thread has not ended.
-/

namespace GreenThreads.Scheduler

/-- An operation on a scheduler. -/
inductive Operation where
  /-- Give out an identity without making a thread. -/
  | allocateId
  /-- Start over with a new thread on the host's stack. -/
  | start (stackSize : Nat)
  /-- Queue a new thread on a stack of its own. -/
  | spawn (routine : Routine) (arg : Word) (stack : Stack)
  /-- Queue a new thread on the host's stack. -/
  | spawnHosted
  | rotate
  | retire (value : Word)
  | reap
  | cancel (id : ThreadId)
  | beginJoin (id : ThreadId)
  | endJoin (id : ThreadId)
  deriving DecidableEq, Repr

/-- What an operation answers. -/
inductive Answer where
  | done
  | id (id : ThreadId)
  | switch (made : Option Switch)
  | load (registers : Option Registers)
  | status (status : ExitStatus)
  | refused (error : ThreadError)
  deriving DecidableEq, Repr

/-- The outcome of an operation: the answer, the scheduler afterwards, and the
stacks that it gave up. -/
structure Effect where
  answer : Answer
  scheduler : Scheduler
  released : List Stack := []
  deriving DecidableEq, Repr

/-- Carry out an operation. -/
def act (s : Scheduler) : Operation → Effect
  | .allocateId => { answer := .id s.allocateId.1, scheduler := s.allocateId.2 }
  | .start stackSize =>
    let (id, s) := s.allocateId
    let (released, s) := s.start (Thread.hosted id) stackSize
    { answer := .id id, scheduler := s, released }
  | .spawn routine arg stack =>
    let (id, s) := s.allocateId
    { answer := .id id, scheduler := s.add (Thread.create id routine arg stack) }
  | .spawnHosted =>
    let (id, s) := s.allocateId
    { answer := .id id, scheduler := s.add (Thread.hosted id) }
  | .rotate => { answer := .switch s.rotate.1, scheduler := s.rotate.2 }
  | .retire value => { answer := .load (s.retire value).1, scheduler := (s.retire value).2 }
  | .reap => { answer := .done, scheduler := s.reap.2, released := s.reap.1 }
  | .cancel id =>
    match s.cancel id with
    | .error e => { answer := .refused e, scheduler := s }
    | .ok (released, s) => { answer := .done, scheduler := s, released }
  | .beginJoin id =>
    match s.beginJoin id with
    | .error e => { answer := .refused e, scheduler := s }
    | .ok s => { answer := .done, scheduler := s }
  | .endJoin id =>
    match s.endJoin id with
    | (.error e, s) => { answer := .refused e, scheduler := s }
    | (.ok status, s) => { answer := .status status, scheduler := s }

/-- The scheduler after a history of operations. -/
def after (s : Scheduler) (history : List Operation) : Scheduler :=
  history.foldl (fun s o => (s.act o).scheduler) s

@[simp] theorem after_nil (s : Scheduler) : s.after [] = s := rfl

@[simp] theorem after_cons (s : Scheduler) (o : Operation) (history : List Operation) :
    s.after (o :: history) = (s.act o).scheduler.after history := rfl

/-- A history continues where an earlier one ended. -/
theorem after_append (s : Scheduler) (earlier later : List Operation) :
    s.after (earlier ++ later) = (s.after earlier).after later :=
  List.foldl_append

end GreenThreads.Scheduler
