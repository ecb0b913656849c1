import GreenThreads.ThreadId

/-!
# GreenThreads.ThreadError

Why a call on threads was refused.  A call that is refused
changes nothing.  Each cause has a code, negative and different from that of
every other cause; `ofCode?` reads it back, given the thread concerned.
-/

namespace GreenThreads

/-- Why an operation was refused. -/
inductive ThreadError where
  | uninitialised
  | alreadyInitialised
  | invalidQuantum
  | unknownThread (id : ThreadId)
  | selfJoin (id : ThreadId)
  | reciprocalJoin (id : ThreadId)
  | alreadyTerminated (id : ThreadId)
  deriving DecidableEq, Repr

namespace ThreadError

/-- The number that stands for the cause where only a number is returned. -/
def code : ThreadError → Int
  | uninitialised => -1
  | alreadyInitialised => -2
  | invalidQuantum => -3
  | unknownThread _ => -4
  | selfJoin _ => -5
  | reciprocalJoin _ => -6
  | alreadyTerminated _ => -7

/-- The cause that a code stands for, with `id` as the thread concerned. -/
def ofCode? (code : Int) (id : ThreadId) : Option ThreadError :=
  match code with
  | -1 => some uninitialised
  | -2 => some alreadyInitialised
  | -3 => some invalidQuantum
  | -4 => some (unknownThread id)
  | -5 => some (selfJoin id)
  | -6 => some (reciprocalJoin id)
  | -7 => some (alreadyTerminated id)
  | _ => none

/-- The thread concerned, if the cause names one. -/
def thread? : ThreadError → Option ThreadId
  | uninitialised | alreadyInitialised | invalidQuantum => none
  | unknownThread id | selfJoin id | reciprocalJoin id | alreadyTerminated id => some id

/-- The cause as a name. -/
def name : ThreadError → String
  | uninitialised => "Uninitialised"
  | alreadyInitialised => "AlreadyInitialised"
  | invalidQuantum => "InvalidQuantum"
  | unknownThread _ => "UnknownThread"
  | selfJoin _ => "SelfJoin"
  | reciprocalJoin _ => "ReciprocalJoin"
  | alreadyTerminated _ => "AlreadyTerminated"

/-- The cause as a sentence. -/
def message : ThreadError → String
  | uninitialised => "the thread scheduler has not been initialised"
  | alreadyInitialised => "the thread scheduler has already been initialised"
  | invalidQuantum => "the scheduling quantum must be at least one microsecond"
  | unknownThread id => "thread " ++ id.text ++ " does not exist"
  | selfJoin id => "thread " ++ id.text ++ " cannot join itself"
  | reciprocalJoin id => "thread " ++ id.text ++ " is already joining the calling thread"
  | alreadyTerminated id => "thread " ++ id.text ++ " has already terminated"

/-- The name, with the thread concerned, for a reader who is debugging. -/
def describe (e : ThreadError) : String :=
  match e.thread? with
  | none => e.name
  | some id => e.name ++ "(" ++ id.describe ++ ")"

theorem code_neg (e : ThreadError) : e.code < 0 := by
  cases e <;> simp [code]

/-- A code reads back as its cause, given the thread that the cause names. -/
theorem ofCode?_code {e : ThreadError} {id : ThreadId} (h : ∀ t ∈ e.thread?, t = id) :
    ofCode? e.code id = some e := by
  cases e <;> simp_all [ofCode?, code, thread?]

end ThreadError

end GreenThreads
