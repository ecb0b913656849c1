/-!
# GreenThreads.ThreadId

The identity of a thread.  Identities are given out in order from one; the
first belongs to the thread that initialises the scheduler, and zero is kept
for "no thread".

They are counted without a bound.  A process is taken to make fewer threads than
a machine word can count (`wordBound`), so that identities do not wrap; a word
that holds one (`Operand.self`, `Reply.word?`) then holds it exactly.
-/

namespace GreenThreads

/-- The identity of a thread, or `nobody`. -/
structure ThreadId where
  val : Nat
  deriving DecidableEq, Repr

namespace ThreadId

/-- The identity that no thread has. -/
def nobody : ThreadId := ⟨0⟩

/-- The first identity given out. -/
def initial : ThreadId := ⟨1⟩

/-- The identity given out after this one. -/
def next (id : ThreadId) : ThreadId := ⟨id.val + 1⟩

/-- Identities compare as their numbers. -/
instance : Ord ThreadId := ⟨fun a b => compare a.val b.val⟩

/-- The identity as its number. -/
def text (id : ThreadId) : String := toString id.val

/-- The identity with its type, for a reader who is debugging. -/
def describe (id : ThreadId) : String := "ThreadId(" ++ id.text ++ ")"

/-- Identities in ascending order. -/
def sort (ids : List ThreadId) : List ThreadId :=
  ids.mergeSort fun a b => decide (a.val ≤ b.val)

end ThreadId

end GreenThreads
