import GreenThreads.Program.Machine

/-!
# GreenThreads.Program

A client program from its start to the end of its process, and what is seen of
it: the events in order, those log records left out that the log does not
take; the lines on the error stream; and how the process ended, if it did.
-/

namespace GreenThreads

/-- What is seen of a program. -/
structure Report where
  events : List Event
  complaints : List Fatal
  outcome : Option Outcome
  deriving DecidableEq, Repr

/-- Whether a log takes records of a level.  A log that is off takes none. -/
def Level.taken (log : Option Level) (level : Level) : Bool :=
  match log with
  | none => false
  | some most => level.rank ≤ most.rank

/-- Whether an event is shown.  What goes to the error stream is shown there. -/
def Event.shown (log : Option Level) : Event → Bool
  | .told (.notice n) => n.level.taken log
  | .told (.complaint _) => false
  | _ => true

/-- The failure that an event complains about. -/
def Event.complaint? : Event → Option Fatal
  | .told (.complaint f) => some f
  | _ => none

/-- The line on the error stream about a failure. -/
def Fatal.line (f : Fatal) : String := "uthreads: " ++ f.message

namespace Program

/-- How deep steps are nested in a program. -/
def depth (p : Program) : Nat :=
  ((p.main :: p.routines).flatten.map Step.depth).foldl max 0

/-- A program that takes more steps is stopped. -/
def stepLimit : Nat := 1000

/-- The turns within which a program has taken all the steps it may.  A step
takes three turns, and three for each step around it; a routine takes a turn
to begin, one to end, and one for each guard to release. -/
def turnBound (p : Program) : Nat := (stepLimit + 2) * (3 * p.depth + 10)

/-- Run a program in a new process, on a host that has room. -/
def run (log : Option Level) (p : Program) : Report :=
  let (m, outcome) := (Machine.start p stepLimit .roomy).run p.turnBound
  let events := m.events.reverse
  { events := events.filter (Event.shown log)
    complaints := events.filterMap Event.complaint?
    outcome }

end Program

end GreenThreads
