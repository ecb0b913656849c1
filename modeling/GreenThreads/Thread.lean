import GreenThreads.Stack
import GreenThreads.ThreadId
import GreenThreads.Word

/-!
# GreenThreads.Thread

The descriptor of a thread: who it is, how far its life has come, what it
runs, whom it waits for, and the context that holds its machine state while
it is switched out.

* A new thread holds a routine, taken when it first runs, and a context on a
  stack of its own.  The thread that starts the scheduler has no routine and
  runs on the host's stack.
* A thread ends by finishing with a value or by being cancelled.  Either
  empties the descriptor: the routine, the wait and the context go, and the
  stack is handed to whoever ended the thread.
-/

namespace GreenThreads

/-- How far the life of a thread has come. -/
inductive Lifecycle where
  | running
  | cancelled
  | done
  deriving DecidableEq, Repr

/-- The state as a name. -/
def Lifecycle.name : Lifecycle → String
  | running => "Running"
  | cancelled => "Cancelled"
  | done => "Done"

/-- The state of a given name. -/
def Lifecycle.ofName? : String → Option Lifecycle
  | "Running" => some .running
  | "Cancelled" => some .cancelled
  | "Done" => some .done
  | _ => none

/-- How a thread ended, as those who join it are told. -/
inductive ExitStatus where
  | returned (value : Word)
  | cancelled
  deriving DecidableEq, Repr

namespace ExitStatus

/-- The status as a bare word, in which the largest word means cancelled. -/
def toWord : ExitStatus → Word
  | returned value => value
  | cancelled => Word.largest

/-- The status, for a reader who is debugging. -/
def describe : ExitStatus → String
  | returned value => "Returned(" ++ toString value.toNat ++ ")"
  | cancelled => "Cancelled"

end ExitStatus

/-- The calling convention of a routine. -/
inductive Convention where
  | native
  | foreign
  deriving DecidableEq, Repr

/-- The convention as a name. -/
def Convention.name : Convention → String
  | native => "native"
  | foreign => "foreign"

/-- The code that a thread runs: which routine it is, and how it is called. -/
structure Routine where
  entry : Nat
  convention : Convention := .native
  deriving DecidableEq, Repr

/-- Where a thread keeps its machine state: on the host's stack, or on a
stack of its own. -/
inductive Context where
  | host
  | own (stack : Stack)
  deriving DecidableEq, Repr

/-- The stack that belongs to the context. -/
def Context.stack? : Context → Option Stack
  | host => none
  | own stack => some stack

/-- Where a machine state is kept: whose it is, and the context that it belongs
to. -/
structure Registers where
  owner : ThreadId
  context : Context
  deriving DecidableEq, Repr

/-- The descriptor of a thread. -/
structure Thread where
  id : ThreadId
  state : Lifecycle := .running
  /-- The routine, until the thread first runs. -/
  routine : Option Routine := none
  arg : Word := 0
  /-- What the thread finished with, once it is done. -/
  value : Word := 0
  /-- The thread whose end this one waits for, or nobody. -/
  joining : ThreadId := .nobody
  /-- The machine state, until the thread ends. -/
  context : Option Context
  deriving DecidableEq, Repr

namespace Thread

/-! ## new descriptors -/

/-- The thread that starts the scheduler. -/
def hosted (id : ThreadId) : Thread := { id, context := some .host }

/-- A thread that will call `routine` with `arg` on its own stack. -/
def create (id : ThreadId) (routine : Routine) (arg : Word) (stack : Stack) : Thread :=
  { id, routine := some routine, arg, context := some (.own stack) }

/-! ## reading a descriptor -/

/-- The stack that belongs to the thread. -/
def stack? (t : Thread) : Option Stack := t.context.bind Context.stack?

/-- Where the machine state of the thread is kept, until it has ended. -/
def registers? (t : Thread) : Option Registers := t.context.map fun context => ⟨t.id, context⟩

/-- A thread can be switched to while it lives and has a context. -/
def isRunnable (t : Thread) : Bool := t.state = .running ∧ t.context.isSome

/-- How the thread ended, if it has. -/
def exitStatus (t : Thread) : Option ExitStatus :=
  match t.state with
  | .running => none
  | .cancelled => some .cancelled
  | .done => some (.returned t.value)

/-! ## changing a descriptor -/

/-- Take the routine and its argument, which are there to be taken once. -/
def takeRoutine (t : Thread) : Option (Routine × Word) × Thread :=
  (t.routine.map fun r => (r, t.arg), { t with routine := none })

/-- The descriptor of a thread that has finished with `value`. -/
def finish (value : Word) (t : Thread) : Thread :=
  { t with state := .done, value, joining := .nobody, routine := none, context := none }

/-- The descriptor of a thread that has been cancelled. -/
def cancel (t : Thread) : Thread :=
  { t with state := .cancelled, joining := .nobody, routine := none, context := none }

@[simp] theorem id_finish (t : Thread) : (t.finish v).id = t.id := rfl
@[simp] theorem id_cancel (t : Thread) : t.cancel.id = t.id := rfl
@[simp] theorem stack?_finish (t : Thread) : (t.finish v).stack? = none := rfl
@[simp] theorem stack?_cancel (t : Thread) : t.cancel.stack? = none := rfl

@[simp] theorem isSome_registers? (t : Thread) : t.registers?.isSome = t.context.isSome :=
  Option.isSome_map

theorem owner_of_registers? {t : Thread} (h : t.registers? = some r) : r.owner = t.id := by
  obtain ⟨context, -, rfl⟩ := Option.map_eq_some_iff.mp h
  rfl

theorem isRunnable_iff {t : Thread} : t.isRunnable ↔ t.state = .running ∧ t.context.isSome := by
  simp [isRunnable]

/-- What can be switched to has its machine state saved. -/
theorem exists_registers {t : Thread} (h : t.isRunnable) : ∃ r, t.registers? = some r :=
  Option.isSome_iff_exists.mp (t.isSome_registers?.trans (isRunnable_iff.mp h).2)

/-- What has finished reports the value it finished with. -/
theorem exitStatus_finish (t : Thread) : (t.finish v).exitStatus = some (.returned v) := rfl

/-- What was cancelled reports so. -/
theorem exitStatus_cancel (t : Thread) : t.cancel.exitStatus = some .cancelled := rfl

/-- What can be switched to has not ended. -/
theorem exitStatus_eq_none {t : Thread} (h : t.isRunnable) : t.exitStatus = none := by
  simp_all [isRunnable, exitStatus]

end Thread

end GreenThreads
