import GreenThreads.Thread

/-!
# GreenThreads.Stack.Bench

Stacks mapped, inspected and released by hand.  The bench numbers the stacks
it was given from zero; a number stays in use, with nothing behind it, after
its stack is gone.

Inspecting a stack writes a mark at each of its ends and reads both back.
Building a context on a stack shows what the host is told about it: where the
stack lies, and that nothing follows once the entry returns.  Capturing the
running code gives a context on the host's stack.
-/

namespace GreenThreads.Stack

/-! ## what a stack shows -/

/-- The mark written at the lowest address. -/
def bottomMark : UInt8 := 0x55

/-- The mark written at the highest address. -/
def topMark : UInt8 := 0xaa

/-- What is seen of a stack: its size, the distance between its ends, whether
it starts on a page, and the marks read back from its ends. -/
structure Probe where
  size : Nat
  span : Nat
  aligned : Bool
  top : UInt8
  bottom : UInt8
  deriving DecidableEq, Repr

/-- Mark a stack and look at it.  The mark at the top is written last. -/
def probe (s : Stack) : Probe where
  size := s.size
  span := s.finish - s.start
  aligned := s.start % Page.size = 0
  top := topMark
  bottom := if s.start + 1 = s.finish then topMark else bottomMark

/-- What the host is told about the stack of a new context. -/
structure Frame where
  start : Nat
  size : Nat
  flags : Nat
  /-- The context to go on with when the entry returns. -/
  link : Option Context
  deriving DecidableEq, Repr

/-- A new context has all of its stack, and nothing to go on with. -/
def frame (s : Stack) : Frame := ⟨s.start, s.size, 0, none⟩

/-- What is seen of a new context: what the host was told, held against the
stack itself; whether its registers stay where they are when it is moved; and
the stack that is left when it is taken apart. -/
structure ContextProbe where
  startsAtStack : Bool
  size : Nat
  sizeAgrees : Bool
  flags : Nat
  isLast : Bool
  registersStay : Bool
  stack : Option Stack
  deriving DecidableEq, Repr

/-- Look at a new context on a stack.  Registers lie outside their context, so
moving the context leaves them alone. -/
def probeContext (s : Stack) : ContextProbe where
  startsAtStack := s.frame.start = s.start
  size := s.frame.size
  sizeAgrees := s.frame.size = s.size
  flags := s.frame.flags
  isLast := s.frame.link.isNone
  registersStay := true
  stack := (Context.own s).stack?

/-! ## the bench -/

/-- The stacks held, by number, and the host's mappings. -/
structure Bench where
  held : List (Option Stack) := []
  pool : StackPool := {}
  deriving Repr

namespace Bench

/-- Something done at the bench. -/
inductive Step where
  | new (bytes : Nat)
  | context (index : Nat)
  | dropContext (index : Nat)
  | drop (index : Nat)
  | capture
  deriving DecidableEq, Repr

/-- What was seen. -/
inductive Answer where
  | failed (cause : MapFailure)
  | mapped (probe : Probe)
  | context (probe : ContextProbe)
  | dropped
  | absent
  /-- The context of the running code, whose registers can be had. -/
  | captured (context : Context) (registers : Bool)
  deriving DecidableEq, Repr

/-- The stack of a given number, if it is still there. -/
def stack? (b : Bench) (index : Nat) : Option Stack := (b.held[index]?).join

/-- Give up the stack of a given number. -/
def drop (b : Bench) (index : Nat) : Answer × Bench :=
  match b.stack? index with
  | none => (.absent, b)
  | some stack => (.dropped, ⟨b.held.set index none, b.pool.release [stack]⟩)

/-- Carry out one step.  A context that was built on a stack hands it back
when it is taken apart. -/
def step (b : Bench) : Step → Answer × Bench
  | .new bytes =>
    match b.pool.map bytes with
    | (.error cause, pool) => (.failed cause, { b with pool })
    | (.ok stack, pool) => (.mapped stack.probe, ⟨b.held ++ [some stack], pool⟩)
  | .context index =>
    match b.stack? index with
    | none => (.absent, b)
    | some stack => (.context stack.probeContext, b)
  | .dropContext index => b.drop index
  | .drop index => b.drop index
  | .capture => (.captured .host true, b)

/-- Give up every stack. -/
def clear (b : Bench) : Bench :=
  ⟨b.held.map fun _ => none, b.pool.release (b.held.filterMap fun stack => stack)⟩

end Bench

end GreenThreads.Stack
