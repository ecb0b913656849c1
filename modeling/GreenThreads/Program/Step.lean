import GreenThreads.Config
import GreenThreads.Thread

/-!
# GreenThreads.Program.Step

The steps that a client program is made of.  A program is plain data: lists of
steps, one for the code that the process starts with and one for each routine
that a thread may run.

Steps work on sixteen registers that all threads share, on the argument of the
routine they are in, and on the guards that this run of the routine has taken.
-/

namespace GreenThreads

/-- Where a step finds a word. -/
inductive Operand where
  | const (value : Word)
  /-- The argument of the routine. -/
  | arg
  /-- The identity of the running thread. -/
  | self
  | register (index : Nat)
  deriving DecidableEq, Repr

/-- A step of a client program.  A step that names a destination writes its
result to that register when it succeeds. -/
inductive Step where
  /-- Go on at another place in the same list. -/
  | goto (target : Nat)
  | ifLess (a b : Operand) (target : Nat)
  /-- End the routine. -/
  | ret (value : Operand)
  | init (quantum : Operand)
  | initWith (config : Config)
  | foreignInit (period : Operand)
  | isInitialised
  | create (routine : Nat) (argument : Operand) (dest : Option Nat)
  | foreignCreate (pointer : Bool) (routine : Nat) (argument : Operand) (dest : Option Nat)
  | join (id : Operand) (dest : Option Nat)
  | foreignJoin (pointer : Bool) (id : Operand) (dest : Option Nat)
  | cancel (convention : Convention) (id : Operand)
  | yield (convention : Convention)
  | exit (convention : Convention) (value : Operand)
  | panic
  | self (convention : Convention)
  | equal (convention : Convention) (a b : Operand)
  /-- The word that stands for a cancellation. -/
  | cancelledWord
  | liveStacks
  | debug
  | mask
  /-- Release a guard that was taken by `mask`. -/
  | drop (index : Nat)
  | unmask
  | isMasked
  /-- Hold the preemption signal off for the length of another step. -/
  | without (step : Step)
  | raise
  | isPending
  | setErrno (number : Operand)
  | errno
  | arm (quantum : Duration)
  | set (register : Nat) (value : Operand)
  | add (register : Nat) (value : Operand)
  | get (value : Operand)
  deriving DecidableEq, Repr

namespace Step

/-- A name, marked when the call follows the foreign convention. -/
def named (convention : Convention) (name : String) : String :=
  match convention with
  | .native => name
  | .foreign => "c_" ++ name

/-- The name under which the step is reported. -/
def name : Step → String
  | goto _ => "goto"
  | ifLess .. => "if_lt"
  | ret _ => "return"
  | init _ => "init"
  | initWith _ => "init_config"
  | foreignInit _ => "c_init"
  | isInitialised => "is_initialised"
  | create .. => "create"
  | foreignCreate true .. => "c_create"
  | foreignCreate false .. => "c_create_null"
  | join .. => "join"
  | foreignJoin true .. => "c_join"
  | foreignJoin false .. => "c_join_null"
  | cancel convention _ => named convention "cancel"
  | yield convention => named convention "yield"
  | exit convention _ => named convention "exit"
  | panic => "panic"
  | self convention => named convention "self"
  | equal convention _ _ => named convention "equal"
  | cancelledWord => "c_cancelled"
  | liveStacks => "live_stacks"
  | debug => "debug"
  | mask => "mask"
  | drop _ => "drop"
  | unmask => "unmask"
  | isMasked => "is_masked"
  | without _ => "without"
  | raise => "raise"
  | isPending => "is_pending"
  | setErrno _ => "set_errno"
  | errno => "errno"
  | arm _ => "arm"
  | set .. => "set"
  | add .. => "add"
  | get _ => "get"

/-- How deep steps are nested. -/
def depth : Step → Nat
  | without step => step.depth + 1
  | _ => 0

end Step

/-- A program: the steps that the process starts with, and the routines. -/
structure Program where
  main : List Step
  routines : List (List Step)
  deriving DecidableEq, Repr

end GreenThreads
