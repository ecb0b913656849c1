/-!
# GreenThreads.Failure

What can go wrong outside a thread's control.

* `Overflow` — a size does not fit a machine word.  Sizes are natural numbers
  here, and `checkedMul` and `checkedAdd` refuse a result that reaches `wordBound`.
* `HostError` — the host turned a request down, or gave an answer that is of no
  use.
-/

namespace GreenThreads

/-! ## sizes that do not fit -/

/-- The operation whose result does not fit a machine word. -/
inductive Overflow where
  | multiply
  | add
  deriving DecidableEq, Repr

/-- The complaint about an overflow. -/
def Overflow.message : Overflow → String
  | .multiply => "attempt to multiply with overflow"
  | .add => "attempt to add with overflow"

/-- Sizes are below this bound, two to the sixty-fourth. -/
def wordBound : Nat := 0x10000000000000000

/-- The product, if it fits a machine word. -/
def checkedMul (a b : Nat) : Except Overflow Nat :=
  if a * b < wordBound then .ok (a * b) else .error .multiply

/-- The sum, if it fits a machine word. -/
def checkedAdd (a b : Nat) : Except Overflow Nat :=
  if a + b < wordBound then .ok (a + b) else .error .add

/-! ## requests the host turns down -/

/-- Why the host did not do what it was asked. -/
inductive HostError where
  | outOfMemory
  | invalidArgument
  /-- Any other reason, with the number, the kind and the words that the host has
  for it. -/
  | other (number : Int) (kind words : String)
  /-- The host has mapped memory at address zero, which stands for no address. -/
  | nullMapping
  deriving DecidableEq, Repr

namespace HostError

/-- The number that the host leaves in `errno`, if it is the host that failed. -/
def number : HostError → Option Int
  | .outOfMemory => some 12
  | .invalidArgument => some 22
  | .other number .. => some number
  | .nullMapping => none

/-- The kind of failure, as a name. -/
def name : HostError → String
  | .outOfMemory | .nullMapping => "OutOfMemory"
  | .invalidArgument => "InvalidInput"
  | .other _ kind _ => kind

/-- What is said about the failure. -/
def message : HostError → String
  | .outOfMemory => "Cannot allocate memory (os error 12)"
  | .invalidArgument => "Invalid argument (os error 22)"
  | .other number _ words => words ++ " (os error " ++ toString number ++ ")"
  | .nullMapping => "out of memory"

end HostError

end GreenThreads
