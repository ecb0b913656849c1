import GreenThreads.Duration
import GreenThreads.Page

/-!
# GreenThreads.Config

What the scheduler is started with: how long a thread may compute before it
has to make way, and how large a stack each new thread is given.

The stack size is kept as it was asked for; `stackSize` rounds it up to whole
pages, and to no less than the host needs for running a signal handler.
-/

namespace GreenThreads

/-- The settings of a scheduler. -/
structure Config where
  /-- How long a thread computes before it has to make way. -/
  quantum : Duration
  /-- The stack size as it was asked for. -/
  requestedStack : Nat
  deriving DecidableEq, Repr

namespace Config

/-- The quantum where none is asked for: fifty milliseconds. -/
def defaultQuantum : Duration := ⟨0, 50000000, by decide⟩

/-- The pages of a stack where no size is asked for. -/
def defaultStackPages : Nat := 16

/-- No stack is smaller than this. -/
def minStackSize : Nat := 16 * 1024

/-- The stack that the host advises for a signal handler. -/
def signalStackSize : Nat := 8192

/-- A given quantum and stacks of the default size. -/
def ofQuantum (quantum : Duration) : Config := ⟨quantum, defaultStackPages * Page.size⟩

/-- A quantum in microseconds and stacks of the default size. -/
def ofMicros (micros : Word) : Config := ofQuantum (.ofMicros micros)

/-- The default settings. -/
def standard : Config := ofQuantum defaultQuantum

/-- The same settings with another stack size. -/
def withStackSize (c : Config) (bytes : Nat) : Config := { c with requestedStack := bytes }

/-- A quantum is valid when it lasts at least a microsecond. -/
def hasValidQuantum (c : Config) : Bool := 0 < c.quantum.micros

/-- The size of each new stack, unless it does not fit a machine word. -/
def stackSize (c : Config) : Except Overflow Nat :=
  Page.roundUp (max (max c.requestedStack minStackSize) signalStackSize)

end Config

end GreenThreads
