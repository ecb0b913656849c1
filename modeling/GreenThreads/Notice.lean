import GreenThreads.Duration
import GreenThreads.Failure
import GreenThreads.PreemptSignal
import GreenThreads.Thread

/-!
# GreenThreads.Notice

What the library tells its log.  A notice is the thing that happened; its
level and its wording follow from it.
-/

namespace GreenThreads

/-- How much a log record matters, the weightiest first. -/
inductive Level where
  | error
  | info
  | debug
  | trace
  deriving DecidableEq, Repr

namespace Level

/-- The level as it is written in the log. -/
def name : Level → String
  | error => "ERROR"
  | info => "INFO"
  | debug => "DEBUG"
  | trace => "TRACE"

/-- How little a record of this level matters. -/
def rank : Level → Nat
  | error => 1
  | info => 2
  | debug => 3
  | trace => 4

end Level

/-- A failure that ends the process, since no thread could go on. -/
inductive Fatal where
  | armTimer (error : HostError)
  | mapStack (error : HostError)
  | missingRoutine
  deriving DecidableEq, Repr

/-- What could not be done, and why. -/
def Fatal.message : Fatal → String
  | armTimer e => "failed to arm virtual timer: " ++ e.message
  | mapStack e => "failed to allocate thread stack: " ++ e.message
  | missingRoutine => "thread started without a routine: invalid input parameter"

/-- Something that is worth a log record. -/
inductive Notice where
  | handlerInstalled
  | timerArmed (quantum : Duration)
  | started (quantum : Duration) (stackSize : Nat)
  | created (id : ThreadId) (stackSize : Nat)
  | cancelled (id : ThreadId)
  | exited (id : ThreadId) (value : Word)
  | initialExiting
  | ending (value : Word)
  | joining (joiner target : ThreadId)
  | joined (joiner target : ThreadId) (status : ExitStatus)
  | panicked (id : ThreadId)
  | fatal (failure : Fatal)
  | descriptor (id : ThreadId) (state : Lifecycle) (joining : ThreadId) (stack : Option Nat)
  | retiredStacks (count : Nat)
  deriving DecidableEq, Repr

namespace Notice

/-- How much the notice matters. -/
def level : Notice → Level
  | panicked _ | fatal _ => .error
  | descriptor .. | retiredStacks _ => .info
  | joining .. | joined .. => .trace
  | _ => .debug

/-- The wording of the notice.  The addresses of a stack are left out. -/
def message : Notice → String
  | handlerInstalled => "installed preemption handler for signal " ++ toString preemptSignalNumber
  | timerArmed q => "armed virtual timer with a " ++ toString q.micros ++ "us quantum"
  | started q size =>
    "scheduler initialised: " ++ toString q.micros ++ "us quantum, " ++ toString size ++ " byte stacks"
  | created id size => "created thread " ++ id.text ++ " with a " ++ toString size ++ " byte stack"
  | cancelled id => "cancelled thread " ++ id.text
  | exited id value => "thread " ++ id.text ++ " exited with " ++ value.hex
  | initialExiting => "initial thread exiting, waiting for remaining threads"
  | ending value => "no threads left to run, exiting with status " ++ toString value.lowSigned
  | joining joiner target => "thread " ++ joiner.text ++ " joining thread " ++ target.text
  | joined joiner target status =>
    "thread " ++ joiner.text ++ " joined thread " ++ target.text ++ ": " ++ status.describe
  | panicked id => "thread " ++ id.text ++ " panicked"
  | fatal failure => failure.message
  | descriptor id state target stack =>
    "thread " ++ id.text ++ ": " ++ state.name ++ ", joining " ++ target.text ++ ", " ++
      match stack with
      | none => "no stack"
      | some size => toString size ++ " byte stack at *"
  | retiredStacks n => toString n ++ " retired stacks awaiting release"

end Notice

/-- The notice that describes a thread. -/
def Thread.notice (t : Thread) : Notice :=
  .descriptor t.id t.state t.joining (t.stack?.map Stack.size)

end GreenThreads
