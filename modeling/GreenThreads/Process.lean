import GreenThreads.Config
import GreenThreads.Scheduler
import GreenThreads.Timer

/-!
# GreenThreads.Process

A process whose one processor is shared by the threads of a scheduler.

The code of a thread is not part of the picture.  It is a client: while it
holds the processor it makes a `Call`, and gets a `Reply` — at once, or after
other threads have run.  What happens in between is the library's part:

* `scheduler` and `pool` are the library's books and the host's;
* `signal` is the preemption signal, whose mask belongs to the running thread
  and is saved and loaded with it, and `timer` is what raises it;
* `strand` tells whose code the processor is running, and `saved` where each
  thread that is switched out will go on;
* `control` tells what happens next: client code has the processor, the
  library is about to go on with a thread, or the process is over;
* `journal` is what the process has told the outside.

The host may refuse a stack or a timer.  All else that is asked of it is taken to
succeed: saving, building and loading the machine state of a thread, installing
the handler, setting the mask, stopping the timer, giving memory back.  The
signal arrives where client code runs, and where the mask is opened; it does not
arrive at an instruction of the library that runs with the mask open.
-/

namespace GreenThreads

/-! ## calls and replies -/

/-- What client code asks of the library or of its host. -/
inductive Call where
  | init (config : Config)
  | create (routine : Routine) (arg : Word)
  | join (id : ThreadId)
  | cancel (id : ThreadId)
  | yield
  | exit (value : Word)
  | panic
  | currentId
  | isInitialised
  | liveStacks
  | debug
  | mask
  | release (guard : Guard)
  | unmask
  | raise
  | arm (quantum : Duration)
  | setErrno (number : Int)
  | abort
  | quit (code : Nat)
  deriving DecidableEq, Repr

/-- What client code gets to see: the answer to its call or, for a thread that
runs for the first time, the routine it is to begin. -/
inductive Reply where
  | done
  | flag (value : Bool)
  | count (number : Nat)
  | thread (id : ThreadId)
  | status (status : ExitStatus)
  | guard (guard : Guard)
  | timer (timer : Timer)
  | refused (error : ThreadError)
  | overflowed (cause : Overflow)
  | hostFailed (error : HostError)
  | begin (routine : Routine) (arg : Word)
  deriving DecidableEq, Repr

/-! ## threads that are switched out -/

/-- Whose code runs: that of the host, which the process began with, or that
of a created thread. -/
inductive Strand where
  | host
  | created (id : ThreadId)
  deriving DecidableEq, Repr

/-- Where a thread goes on when it is switched to. -/
inductive Resumption where
  /-- It has not run yet. -/
  | begin
  /-- It gave the processor up of its own accord. -/
  | yielding (guard : Guard)
  /-- It waits for another thread to end. -/
  | joining (target : ThreadId) (guard : Guard)
  /-- It is the initial thread, and waits for all others to end before it ends
  the process. -/
  | exiting (value : Word)
  /-- It was preempted: the handler will restore `errno` and let the
  interrupted call answer. -/
  | preempted (errno : Int) (reply : Reply)
  deriving DecidableEq, Repr

/-- The machine state of a thread that is switched out. -/
structure Saved where
  strand : Strand
  masked : Bool
  resumption : Resumption
  deriving DecidableEq, Repr

/-! ## the process -/

/-- How a process ends. -/
inductive Outcome where
  | exit (code : Nat)
  | signal (number : Nat)
  deriving DecidableEq, Repr

/-- What happens next. -/
inductive Control where
  /-- Client code holds the processor and sees `reply`. -/
  | client (reply : Reply)
  /-- A thread has just been switched to. -/
  | arriving (resumption : Resumption)
  /-- A thread that waits found nobody to hand the processor to. -/
  | waiting (resumption : Resumption)
  | over (outcome : Outcome)
  deriving DecidableEq, Repr

/-- What a process tells the outside. -/
inductive Record where
  /-- A log record. -/
  | notice (notice : Notice)
  /-- A line on the error stream. -/
  | complaint (failure : Fatal)
  /-- The log was flushed. -/
  | flush
  deriving DecidableEq, Repr

/-- A process and the threads in it. -/
structure Process where
  scheduler : Scheduler := {}
  pool : StackPool := {}
  /-- The identity of the thread that initialised the scheduler. -/
  host : Option ThreadId := none
  signal : PreemptSignal := {}
  timer : Timer := .stopped
  errno : Int := 0
  strand : Strand := .host
  saved : List (ThreadId × Saved) := []
  control : Control := .client .done
  journal : List Record := []
  deriving Repr

namespace Process

/-! ## small steps -/

/-- Whether the scheduler has been initialised. -/
def isInitialised (p : Process) : Bool := p.host.isSome

/-- Tell the outside something. -/
def tell (r : Record) (p : Process) : Process := { p with journal := p.journal ++ [r] }

/-- Write to the log. -/
def note (n : Notice) (p : Process) : Process := p.tell (.notice n)

/-- Hold the preemption signal off. -/
def block (p : Process) : Process := { p with signal := p.signal.block }

/-- Give stacks back to the host. -/
def release (freed : List Stack) (p : Process) : Process :=
  { p with pool := p.pool.release freed }

/-- Give back the stacks of threads that have finished. -/
def reap (p : Process) : Process :=
  { p with scheduler := p.scheduler.reap.2 }.release p.scheduler.reap.1

/-- Let client code see a reply. -/
def answer (reply : Reply) (p : Process) : Process := { p with control := .client reply }

/-- The process is over. -/
def stop (outcome : Outcome) (p : Process) : Process := { p with control := .over outcome }

/-! ## endings -/

/-- Stop the timer and end the process, with the low byte of `value` as its
code. -/
def terminate (value : Word) (p : Process) : Process :=
  ({ p.note (.ending value) with timer := .stopped }.tell .flush).stop (.exit value.lowByte)

/-- End the process after a failure that no thread could survive. -/
def die (failure : Fatal) (p : Process) : Process :=
  (((p.note (.fatal failure)).tell (.complaint failure)).tell .flush).stop (.exit 1)

/-- End the process on the spot. -/
def abort (p : Process) : Process := p.stop (.signal 6)

/-! ## saved machine states -/

/-- Forget the machine state of a thread. -/
def forget (id : ThreadId) (p : Process) : Process :=
  { p with saved := p.saved.filter fun x => x.1 ≠ id }

/-- Keep a machine state for a thread. -/
def keep (id : ThreadId) (saved : Saved) (p : Process) : Process :=
  { p with saved := (id, saved) :: (p.forget id).saved }

/-- Save the machine state of the running thread. -/
def store (id : ThreadId) (resumption : Resumption) (p : Process) : Process :=
  p.keep id ⟨p.strand, p.signal.masked, resumption⟩

/-- Go on with a thread where it was switched out.  Where no machine state has
been saved there is only memory that may not be touched. -/
def load (id : ThreadId) (p : Process) : Process :=
  match p.saved.lookup id with
  | none => p.stop (.signal 11)
  | some s =>
    { p.forget id with
      strand := s.strand
      signal := { p.signal with masked := s.masked }
      control := .arriving s.resumption }

end Process

end GreenThreads
