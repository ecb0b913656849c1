import GreenThreads.Duration
import GreenThreads.Failure

/-!
# GreenThreads.Timer

The host's interval timer, which counts the time that the process computes
and raises the preemption signal each time an interval has passed.

* An interval is written as a `Timeval`: signed seconds and microseconds.
* An interval of zero stops the timer.
* The host turns down a negative interval, and keeps a longer one than it can
  count as the longest that it can.
-/

namespace GreenThreads

/-- The host's form of a span of time. -/
structure Timeval where
  sec : Int
  usec : Int
  deriving DecidableEq, Repr

namespace Timeval

/-- A duration in the host's form: the seconds wrap to signed words, and
what is less than a microsecond is dropped. -/
def ofDuration (d : Duration) : Timeval := ⟨d.secs.signed, (d.nanos / 1000 : Nat)⟩

/-- The interval that stops a timer. -/
def zero : Timeval := ⟨0, 0⟩

/-- The longest interval the host can count, `2 ^ 63 - 1` nanoseconds in
whole microseconds. -/
def longest : Timeval := ⟨9223372036, 854775⟩

end Timeval

/-- The interval of a timer that has been set; it runs unless this is zero. -/
structure Timer where
  interval : Timeval
  deriving DecidableEq, Repr

namespace Timer

/-- Whether the timer is counting. -/
def isRunning (t : Timer) : Bool := t.interval ≠ .zero

/-- Set the timer to fire each time `d` has passed. -/
def arm (d : Duration) : Except HostError Timer :=
  let interval := Timeval.ofDuration d
  if interval.sec < 0 then .error .invalidArgument
  else if interval.sec < Timeval.longest.sec then .ok ⟨interval⟩
  else .ok ⟨.longest⟩

/-- The timer once it has been stopped. -/
def stopped : Timer := ⟨.zero⟩

end Timer

end GreenThreads
