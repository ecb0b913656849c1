/-!
# GreenThreads.PreemptSignal

The signal that takes the processor away from a thread, and the mask that
holds it off.

* While the signal is masked, raising it leaves it pending.  One bit says so,
  however often it was raised.
* A pending signal arrives as soon as the mask opens.
* A `Guard` masks the signal and remembers whether it was masked already;
  releasing it opens the mask only if it was not.
-/

namespace GreenThreads

/-- The number of the preemption signal. -/
def preemptSignalNumber : Nat := 26

/-- The preemption signal as the host keeps it. -/
structure PreemptSignal where
  masked : Bool := false
  pending : Bool := false
  deriving DecidableEq, Repr

/-- What is to be restored when a critical section ends. -/
structure Guard where
  wasMasked : Bool
  deriving DecidableEq, Repr

namespace PreemptSignal

/-- Hold the signal off. -/
def block (s : PreemptSignal) : PreemptSignal := { s with masked := true }

/-- Let the signal through. -/
def unblock (s : PreemptSignal) : PreemptSignal := { s with masked := false }

/-- The signal has been raised. -/
def raise (s : PreemptSignal) : PreemptSignal := { s with pending := true }

/-- Whether the signal is being delivered now. -/
def arrives (s : PreemptSignal) : Bool := s.pending && !s.masked

/-- The handler has been entered: the signal is spent, and held off until the
handler returns. -/
def accept (s : PreemptSignal) : PreemptSignal := { s with masked := true, pending := false }

/-- The guard that restores the mask as it is now. -/
def guard (s : PreemptSignal) : Guard := ⟨s.masked⟩

/-- Undo what a guard did. -/
def restore (g : Guard) (s : PreemptSignal) : PreemptSignal :=
  if g.wasMasked then s else s.unblock

/-- A guard released at once leaves the mask as it was. -/
theorem restore_guard_block (s : PreemptSignal) : s.block.restore s.guard = s := by
  cases s with
  | mk masked pending => cases masked <;> simp [restore, guard, block, unblock]

end PreemptSignal

end GreenThreads
