import GreenThreads.Process.Foreign

/-!
# GreenThreads.Program.Event

What is seen of a running program: what each step came to, in the order in
which the steps ended, and between them what the process told the outside.
-/

namespace GreenThreads

/-- What a step came to. -/
inductive Value where
  | none
  | flag (value : Bool)
  | number (value : Int)
  | word (value : Word)
  | thread (id : ThreadId)
  | status (status : ExitStatus)
  | timer (timer : Timer)
  | refused (error : ThreadError)
  | overflowed (cause : Overflow)
  | hostFailed (error : HostError)
  /-- The code that a foreign call returned. -/
  | code (code : Int)
  /-- The code, and the variable that the call was to write to. -/
  | codeOut (code : Int) (out : Word)
  deriving DecidableEq, Repr

/-- The value that native code makes of a reply. -/
def Value.ofReply : Reply → Value
  | .done => .none
  | .flag b => .flag b
  | .count n => .number n
  | .thread id => .thread id
  | .status s => .status s
  | .guard g => .flag g.wasMasked
  | .timer t => .timer t
  | .refused e => .refused e
  | .overflowed o => .overflowed o
  | .hostFailed e => .hostFailed e
  | .begin .. => .none

/-- Something that is seen of a running program. -/
inductive Event where
  /-- The process told the outside something. -/
  | told (record : Record)
  /-- A routine began. -/
  | began (thread : ThreadId) (routine : Routine) (arg : Word)
  /-- A step ended, or is about to end the routine. -/
  | stepped (thread : ThreadId) (name : String) (value : Value)
  /-- The program took too many steps. -/
  | limit
  deriving DecidableEq, Repr

end GreenThreads
