import GreenThreads.Notice

/-!
# GreenThreads.Thread.Action

Everything that can be asked of a single descriptor, as data, so that a
sequence of requests can be carried out on one.

An action answers, changes the descriptor, and may give up a stack or write
to the log.  A finished thread's stack goes to the one who asked; a cancelled
thread's stack is given up at once.
-/

namespace GreenThreads.Thread

/-- A request to a descriptor. -/
inductive Action where
  | id
  | state
  | joining
  | isRunnable
  | hasRegisters
  | setJoining (target : ThreadId)
  | setState (state : Lifecycle)
  | takeRoutine
  | exitStatus
  | finish (value : Word)
  | cancel
  | debug
  deriving DecidableEq, Repr

/-- What a descriptor answers. -/
inductive Answer where
  | done
  | id (id : ThreadId)
  | state (state : Lifecycle)
  | flag (value : Bool)
  | routine (taken : Option (Routine × Word))
  | status (status : Option ExitStatus)
  | stack (stack : Option Stack)
  deriving DecidableEq, Repr

/-- The outcome of an action: the answer, the descriptor afterwards, and the
stack and the notices that it gave up. -/
structure Effect where
  answer : Answer
  thread : Thread
  released : List Stack := []
  notices : List Notice := []
  deriving DecidableEq, Repr

/-- Carry out an action. -/
def act (t : Thread) : Action → Effect
  | .id => { answer := .id t.id, thread := t }
  | .state => { answer := .state t.state, thread := t }
  | .joining => { answer := .id t.joining, thread := t }
  | .isRunnable => { answer := .flag t.isRunnable, thread := t }
  | .hasRegisters => { answer := .flag t.registers?.isSome, thread := t }
  | .setJoining target => { answer := .done, thread := { t with joining := target } }
  | .setState state => { answer := .done, thread := { t with state } }
  | .takeRoutine => { answer := .routine t.takeRoutine.1, thread := t.takeRoutine.2 }
  | .exitStatus => { answer := .status t.exitStatus, thread := t }
  | .finish value =>
    { answer := .stack t.stack?, thread := t.finish value, released := t.stack?.toList }
  | .cancel => { answer := .done, thread := t.cancel, released := t.stack?.toList }
  | .debug => { answer := .done, thread := t, notices := [t.notice] }

/-- No action changes who the thread is. -/
theorem id_act (t : Thread) (a : Action) : (t.act a).thread.id = t.id := by
  cases a <;> rfl

end GreenThreads.Thread
