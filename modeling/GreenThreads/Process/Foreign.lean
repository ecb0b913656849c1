import GreenThreads.Process.Turn

/-!
# GreenThreads.Process.Foreign

The calling convention for client code that knows only numbers.

* A call returns a code: zero when it succeeded, and otherwise the code of the
  error.
* What else there is to tell is written through a pointer, which may be null,
  and only when the call succeeded.
* The quantum is a signed number; one that is not positive is refused whatever
  the state of the library.
* A panic cannot leave a function of this convention, be it a call or the
  routine of a thread: it ends the process on the spot, and nothing is logged.
-/

namespace GreenThreads

namespace Call

/-- The call that a foreign initialisation makes, or the error that it returns
without making one. -/
def foreignInit (period : Word) : Except ThreadError Call :=
  if period.signed ≤ 0 then .error .invalidQuantum else .ok (.init (.ofMicros period))

/-- The call that a foreign creation makes. -/
def foreignCreate (entry : Nat) (arg : Word) : Call := .create ⟨entry, .foreign⟩ arg

end Call

namespace Reply

/-- The code that a foreign call returns. -/
def code : Reply → Int
  | .refused e => e.code
  | _ => 0

/-- The word that a foreign call has to pass on. -/
def word? : Reply → Option Word
  | .thread id => some (UInt64.ofNat id.val)
  | .status s => some s.toWord
  | _ => none

/-- The variable behind a pointer once a foreign call has returned: written
when the pointer is not null and there is something to pass on. -/
def writeOut (pointer : Bool) (old : Word) (reply : Reply) : Word :=
  if pointer then reply.word?.getD old else old

end Reply

/-- What a panic comes to once it has left the steps of a routine.  A native
routine hands it on to the library. -/
def Convention.panicked : Convention → Call
  | .native => .panic
  | .foreign => .abort

end GreenThreads
