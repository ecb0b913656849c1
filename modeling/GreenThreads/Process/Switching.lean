import GreenThreads.Process

/-!
# GreenThreads.Process.Switching

How the processor passes from one thread to another, and how a thread goes on
once it has the processor again.

* `handOver` queues the running thread last and goes on with the first one in
  the queue.
* `deliver` is what the preemption signal does to the running thread: a
  handover, after which the interrupted call answers as if nothing had
  happened.
* `leave` ends a critical section.  The mask opens if it was open before, and
  a signal that is pending then arrives at once.
* `resume` goes on with a thread that has been switched to.  A thread that
  waits looks again whether what it waits for has happened.
-/

namespace GreenThreads.Process

/-! ## handing the processor over -/

/-- Queue the running thread last and go on with the first one in the queue;
`stay` is what happens if there is none. -/
def handOver (resumption : Resumption) (stay : Process → Process) (p : Process) : Process :=
  match p.scheduler.rotate with
  | (none, s) => stay { p with scheduler := s }
  | (some switch, s) =>
    ({ p with scheduler := s }.store switch.save.owner resumption).load switch.load.owner

/-- The preemption signal arrives.  Before the scheduler is initialised nobody
handles it, which ends the process. -/
def deliver (reply : Reply) (p : Process) : Process :=
  if p.isInitialised then
    { p with signal := p.signal.accept }.handOver (.preempted p.errno reply)
      fun q => { q with signal := q.signal.unblock }.answer reply
  else p.stop (.signal preemptSignalNumber)

/-- Let client code see a reply, after a signal that is due has arrived. -/
def answerOpen (reply : Reply) (p : Process) : Process :=
  if p.signal.arrives then p.deliver reply else p.answer reply

/-- Open the mask. -/
def unblock (reply : Reply) (p : Process) : Process :=
  { p with signal := p.signal.unblock }.answerOpen reply

/-- End a critical section that began with `guard`. -/
def leave (guard : Guard) (reply : Reply) (p : Process) : Process :=
  { p with signal := p.signal.restore guard }.answerOpen reply

/-! ## waiting -/

/-- Wait until a thread has ended, then say how. -/
def awaitEnd (target : ThreadId) (guard : Guard) (p : Process) : Process :=
  if p.scheduler.isRunning target then
    p.handOver (.joining target guard) fun q =>
      { q with control := .waiting (.joining target guard) }
  else
    match p.scheduler.endJoin target with
    | (.error e, s) => { p with scheduler := s }.leave guard (.refused e)
    | (.ok status, s) =>
      ({ p with scheduler := s }.note (.joined s.currentId target status)).leave guard
        (.status status)

/-- Wait until no other thread is ready, then end the process. -/
def awaitOthers (value : Word) (p : Process) : Process :=
  if p.scheduler.ready.isEmpty then p.terminate value
  else
    p.handOver (.exiting value) fun q => { q with control := .waiting (.exiting value) }

/-! ## going on -/

/-- Take the routine of the current thread and begin it with the mask open. -/
def beginRoutine (p : Process) : Process :=
  match p.scheduler.current.map Thread.takeRoutine with
  | some (some (routine, arg), t) =>
    { p with scheduler := { p.scheduler with current := some t } }.unblock (.begin routine arg)
  | _ => p.die .missingRoutine

/-- Go on with a thread where it left off. -/
def resume (resumption : Resumption) (p : Process) : Process :=
  match resumption with
  | .begin => p.beginRoutine
  | .yielding guard => p.leave guard .done
  | .joining target guard => p.awaitEnd target guard
  | .exiting value => p.awaitOthers value
  | .preempted errno reply => { p with errno }.unblock reply

end GreenThreads.Process
