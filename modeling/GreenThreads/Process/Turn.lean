import GreenThreads.Process.Call

/-!
# GreenThreads.Process.Turn

The library's turns between two stretches of client code.  A thread that has
been switched to first gives back the stacks of threads that have finished,
and then goes on where it left off.

Threads that wait may pass the processor round among themselves.  Nothing
changes while they do, except that a signal may arrive once; so when every
thread has had its turn twice and no client code has run, none ever will.
-/

namespace GreenThreads.Process

/-- One turn of the library; client code, and a process that is over, are left
alone. -/
def advance (p : Process) : Process :=
  match p.control with
  | .arriving resumption => p.reap.resume resumption
  | .waiting resumption => p.resume resumption
  | .client _ => p
  | .over _ => p

/-- Whether client code holds the processor, or the process is over. -/
def isSettled (p : Process) : Bool :=
  match p.control with
  | .client _ | .over _ => true
  | .arriving _ | .waiting _ => false

/-- Let the library take at most `n` turns. -/
def settleWithin : Nat → Process → Option Process
  | 0, p => if p.isSettled then some p else none
  | n + 1, p => if p.isSettled then some p else p.advance.settleWithin n

/-- The turns within which client code gets the processor, if it ever does. -/
def turnBound (p : Process) : Nat := 2 * (p.scheduler.ready.length + 2)

/-- Let the library work until client code holds the processor or the process
is over; there is no result if that never happens. -/
def settle (p : Process) : Option Process := p.settleWithin p.turnBound

end GreenThreads.Process
