import GreenThreads.Program.Event
import GreenThreads.Program.Step

/-!
# GreenThreads.Program.Machine

The machine that runs a client program on a process.

Each run of a routine is an `Activation`: the place it has come to, the guards
it has taken, and the tasks it still has to do for the present step.  A step
that makes a call leaves the task to await the reply, so whatever happens
until the thread is switched back to, it goes on where it was.

An activation that ends, other than by `exit`, first releases the guards that
it still holds: those of the steps it is inside of, the innermost first, and
then the others in the order in which they were taken.
-/

namespace GreenThreads

/-! ## activations -/

/-- Something that an activation still has to do. -/
inductive Task where
  | perform (step : Step)
  /-- See the reply to a step. -/
  | await (step : Step)
  /-- Release the guard of a step that encloses another. -/
  | close (guard : Guard) (step : Step)
  /-- Release a guard that was left over. -/
  | release (guard : Guard)
  /-- Make the last call. -/
  | leave (call : Call)
  deriving DecidableEq, Repr

/-- The guard that a task is there to release. -/
def Task.guard? : Task → Option Guard
  | close guard _ => some guard
  | release guard => some guard
  | _ => none

/-- A run of a list of steps. -/
structure Activation where
  code : List Step
  arg : Word := 0
  convention : Convention := .native
  /-- The place of the next step. -/
  place : Nat := 0
  /-- The guards taken, with nothing in the place of those released. -/
  guards : List (Option Guard) := []
  tasks : List Task := []
  deriving DecidableEq, Repr

/-- A run that has nothing left to do but to release its guards and to make its
last call. -/
def Activation.leaving (a : Activation) (call : Call) : Activation :=
  let guards := a.tasks.filterMap Task.guard? ++ a.guards.filterMap fun g => g
  { a with guards := [], tasks := guards.map .release ++ [.leave call] }

/-- A program that is running. -/
structure Machine where
  process : Process := {}
  /-- How many steps may be taken. -/
  limit : Nat
  routines : List (List Step)
  registers : List Word := List.replicate 16 0
  activations : List (Strand × Activation)
  /-- What has been seen, the latest first. -/
  events : List Event := []
  /-- How many steps have been taken. -/
  steps : Nat := 0
  deriving Repr

namespace Machine

/-- The code with which a program that takes too many steps is stopped. -/
def limitCode : Nat := 90

/-- What a variable holds that a foreign call may write to. -/
def outVariable : Word := 12345

/-- A program about to run on a host, for so many steps at most. -/
def start (program : Program) (limit : Nat) (host : Host) : Machine where
  process := { pool := { host } }
  limit
  routines := program.routines
  activations := [(.host, { code := program.main })]

/-! ## small steps -/

/-- Record something that is seen. -/
def see (e : Event) (m : Machine) : Machine := { m with events := e :: m.events }

/-- Record what the process has told the outside. -/
def listen (m : Machine) : Machine :=
  { m with
    events := (m.process.journal.map .told).reverse ++ m.events
    process := { m.process with journal := [] } }

/-- The activation of the code that the processor runs. -/
def activation (m : Machine) : Activation :=
  (m.activations.lookup m.process.strand).getD { code := [] }

/-- Put the activation of the running code in its place. -/
def setActivation (a : Activation) (m : Machine) : Machine :=
  { m with
    activations :=
      (m.process.strand, a) :: m.activations.filter fun x => x.1 ≠ m.process.strand }

/-- Make a call. -/
def call (c : Call) (m : Machine) : Machine := { m with process := m.process.perform c }

/-- The identity of the running thread. -/
def self (m : Machine) : ThreadId := m.process.scheduler.currentId

/-- The word that an operand stands for. -/
def read (m : Machine) : Operand → Word
  | .const value => value
  | .arg => m.activation.arg
  | .self => UInt64.ofNat m.self.val
  | .register index => m.registers.getD index 0

/-- The identity that an operand stands for. -/
def readId (m : Machine) (o : Operand) : ThreadId := ⟨(m.read o).toNat⟩

/-- Write to a register. -/
def write (dest : Nat) (value : Word) (m : Machine) : Machine :=
  { m with registers := m.registers.set dest value }

/-- Write to a register if there are both a register and a word. -/
def write? (dest : Option Nat) (value : Option Word) (m : Machine) : Machine :=
  match dest, value with
  | some dest, some value => m.write dest value
  | _, _ => m

/-- Report a step. -/
def report (step : Step) (value : Value) (m : Machine) : Machine :=
  m.see (.stepped m.self step.name value)

/-- Write to a register, and report the step with the word written. -/
def assign (step : Step) (dest : Nat) (value : Word) (m : Machine) : Machine :=
  (m.write dest value).report step (.word value)

/-! ## performing a step -/

/-- The call that a step makes, if it makes one and waits for the reply. -/
def callOf? (m : Machine) : Step → Option Call
  | .init quantum => some (.init (.ofMicros (m.read quantum)))
  | .initWith config => some (.init config)
  | .foreignInit period => (Call.foreignInit (m.read period)).toOption
  | .isInitialised => some .isInitialised
  | .create routine x _ => some (.create ⟨routine, .native⟩ (m.read x))
  | .foreignCreate _ routine x _ => some (.foreignCreate routine (m.read x))
  | .join id _ => some (.join (m.readId id))
  | .foreignJoin _ id _ => some (.join (m.readId id))
  | .cancel _ id => some (.cancel (m.readId id))
  | .yield _ => some .yield
  | .self _ => some .currentId
  | .liveStacks => some .liveStacks
  | .debug => some .debug
  | .mask => some .mask
  | .drop index => (m.activation.guards[index]?).join.map .release
  | .unmask => some .unmask
  | .raise => some .raise
  | .setErrno number => some (.setErrno (m.read number).lowSigned)
  | .arm quantum => some (.arm quantum)
  | _ => none

/-- What a step comes to that makes no call. -/
def valueOf (m : Machine) : Step → Value
  | .foreignInit period =>
    match Call.foreignInit (m.read period) with
    | .error e => .code e.code
    | .ok _ => .none
  | .equal .native a b => .flag (m.read a = m.read b)
  | .equal .foreign a b => .number (if m.read a = m.read b then 1 else 0)
  | .cancelledWord => .word ExitStatus.cancelled.toWord
  | .drop _ => .flag false
  | .isMasked => .flag m.process.signal.masked
  | .isPending => .flag m.process.signal.pending
  | .errno => .number m.process.errno
  | .get value => .word (m.read value)
  | _ => .none

/-- End the running activation: report, release its guards, make its last
call. -/
def finish (name : String) (value : Value) (last : Call) (m : Machine) : Machine :=
  (m.see (.stepped m.self name value)).setActivation (m.activation.leaving last)

/-- The last call of an activation that returns a value.  What the process was
started with has no one to return a value to. -/
def lastCall (value : Word) (m : Machine) : Call :=
  match m.process.strand with
  | .host => .quit 0
  | .created _ => .exit value

/-- Perform a step; `a` is the running activation without the task to do so. -/
def perform (step : Step) (a : Activation) (m : Machine) : Machine :=
  match step with
  | .goto target => m.setActivation { a with place := target }
  | .ifLess x y target =>
    m.setActivation (if m.read x < m.read y then { a with place := target } else a)
  | .ret value =>
    (m.setActivation a).finish step.name (.word (m.read value)) (m.lastCall (m.read value))
  | .panic => (m.setActivation a).finish step.name .none a.convention.panicked
  | .exit _ value =>
    ((m.report step (.word (m.read value))).setActivation { a with tasks := [] }).call
      (.exit (m.read value))
  | .without inner =>
    (m.setActivation
      { a with tasks := .perform inner :: .close m.process.signal.guard step :: a.tasks }).call
      .mask
  | .set dest value => (m.setActivation a).assign step dest (m.read value)
  | .add dest value =>
    (m.setActivation a).assign step dest (m.read (.register dest) + m.read value)
  | _ =>
    match m.callOf? step with
    | some c => (m.setActivation { a with tasks := .await step :: a.tasks }).call c
    | none => (m.setActivation a).report step (m.valueOf step)

/-! ## seeing a reply -/

/-- What a step comes to when the reply to its call is seen. -/
def valueOfReply (reply : Reply) : Step → Value
  | .foreignInit _ => .code reply.code
  | .cancel .foreign _ => .code reply.code
  | .foreignCreate pointer _ _ _ | .foreignJoin pointer _ _ =>
    .codeOut reply.code (reply.writeOut pointer outVariable)
  | .drop _ => .flag true
  | _ => .ofReply reply

/-- The register and the word that a step writes when it has succeeded. -/
def result? (reply : Reply) : Step → Option Nat × Option Word
  | .create _ _ dest => (dest, reply.word?)
  | .join _ dest => (dest, reply.word?)
  | .foreignCreate pointer _ _ dest | .foreignJoin pointer _ dest =>
    (dest, reply.word?.map fun _ => reply.writeOut pointer outVariable)
  | _ => (none, none)

/-- The guards of an activation after a step. -/
def guardsAfter (reply : Reply) (guards : List (Option Guard)) : Step → List (Option Guard)
  | .mask =>
    match reply with
    | .guard g => guards ++ [some g]
    | _ => guards
  | .drop index => guards.set index none
  | _ => guards

/-- See the reply to a step; `a` is the running activation without the task to
await it. -/
def await (step : Step) (reply : Reply) (a : Activation) (m : Machine) : Machine :=
  match step, reply with
  | .foreignCreate .., .overflowed _ => { m with process := m.process.abort }
  | _, _ =>
    let m := m.setActivation { a with guards := guardsAfter reply a.guards step }
    let (dest, value) := result? reply step
    (m.write? dest value).report step (valueOfReply reply step)

/-! ## taking turns -/

/-- Take the next step of the running activation.  An activation with no step
left ends, also when no further step may be taken. -/
def fetch (a : Activation) (m : Machine) : Machine :=
  match a.code[a.place]?, m.process.strand with
  | some step, _ =>
    if m.limit ≤ m.steps then
      { m.see .limit with process := m.process.stop (.exit limitCode) }
    else
      { m.setActivation { a with place := a.place + 1, tasks := [.perform step] } with
        steps := m.steps + 1 }
  | none, .host => m.finish "end" (.word 0) (m.lastCall 0)
  | none, .created _ => m.finish "return" (.word 0) (m.lastCall 0)

/-- Begin a routine. -/
def begin (routine : Routine) (arg : Word) (m : Machine) : Machine :=
  let m := m.see (.began m.self routine arg)
  let a : Activation :=
    { code := (m.routines[routine.entry]?).getD [], arg, convention := routine.convention }
  { m.setActivation a with process := m.process.answer .done }

/-- A turn of the client code that holds the processor and sees `reply`. -/
def turn (reply : Reply) (m : Machine) : Machine :=
  match reply with
  | .begin routine arg => m.begin routine arg
  | _ =>
    let a := m.activation
    match a.tasks with
    | [] => m.fetch a
    | .perform step :: tasks => m.perform step { a with tasks }
    | .await step :: tasks => m.await step reply { a with tasks }
    | .close guard step :: tasks =>
      (m.setActivation { a with tasks := .await step :: tasks }).call (.release guard)
    | .release guard :: tasks => (m.setActivation { a with tasks }).call (.release guard)
    | .leave last :: tasks => (m.setActivation { a with tasks }).call last

/-- Run until the process is over, for at most `n` turns of client code.  There
is no outcome if client code never gets the processor again. -/
def run : Nat → Machine → Machine × Option Outcome
  | 0, m => (m, none)
  | n + 1, m =>
    let m := m.listen
    match m.process.settle with
    | none => (m, none)
    | some p =>
      let m := { m with process := p }.listen
      match p.control with
      | .client reply => run n (m.turn reply)
      | .over outcome => (m, some outcome)
      | _ => (m, none)

end Machine

end GreenThreads
