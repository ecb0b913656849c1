import GreenThreads.Word

/-!
# GreenThreads.Duration

A span of time in seconds and nanoseconds.  Only whole microseconds count
for a timer, so a span shorter than one microsecond is as good as none.
-/

namespace GreenThreads

/-- A span of `secs` seconds and `nanos` nanoseconds. -/
structure Duration where
  secs : Word
  nanos : Nat
  /-- A full second is never written in nanoseconds. -/
  nanos_lt : nanos < 1000000000
  deriving DecidableEq, Repr

namespace Duration

/-- Seconds and nanoseconds, with full seconds carried over. -/
def ofParts (secs : Word) (nanos : Nat) : Duration where
  secs := secs + UInt64.ofNat (nanos / 1000000000)
  nanos := nanos % 1000000000
  nanos_lt := Nat.mod_lt _ (by decide)

/-- A whole number of microseconds. -/
def ofMicros (micros : Word) : Duration where
  secs := micros / 1000000
  nanos := micros.toNat % 1000000 * 1000
  nanos_lt := by omega

/-- The whole microseconds in the span. -/
def micros (d : Duration) : Nat := d.secs.toNat * 1000000 + d.nanos / 1000

end Duration

end GreenThreads
