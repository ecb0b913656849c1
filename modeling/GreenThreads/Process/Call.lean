import GreenThreads.Process.Switching

/-!
# GreenThreads.Process.Call

What each call does.  A call on the threads is a critical section: the
preemption signal is held off while the books are changed, and the mask is put
back as it was before client code sees the reply.

A call that is refused changes nothing.  Two things end the process: a failure
of the host while the timer is armed or a stack is mapped, and a panic.
-/

namespace GreenThreads.Process

/-! ## starting and creating -/

/-- Start the scheduler; the caller becomes its initial thread.  The identity
is given out before the stack size is worked out, so a size that overflows
uses an identity up. -/
def init (config : Config) (p : Process) : Process :=
  let guard := p.signal.guard
  let p := p.block
  if p.isInitialised then p.leave guard (.refused .alreadyInitialised)
  else if ¬ config.hasValidQuantum then p.leave guard (.refused .invalidQuantum)
  else
    let (id, s) := p.scheduler.allocateId
    match config.stackSize with
    | .error o => { p with scheduler := s }.leave guard (.overflowed o)
    | .ok size =>
      let (released, s) := s.start (Thread.hosted id) size
      let p := { p with scheduler := s, host := some id }.release released
      let p := p.note .handlerInstalled
      match Timer.arm config.quantum with
      | .error e => p.die (.armTimer e)
      | .ok timer =>
        let p := { p with timer }.note (.timerArmed config.quantum)
        (p.note (.started config.quantum size)).unblock .done

/-- Make a thread that will call `routine` with `arg`, and queue it last.  It
starts with the mask of the critical section it was made in. -/
def create (routine : Routine) (arg : Word) (p : Process) : Process :=
  if ¬ p.isInitialised then p.answer (.refused .uninitialised)
  else
    let guard := p.signal.guard
    let p := p.block
    match p.pool.map p.scheduler.stackSize with
    | (.error (.overflow o), _) => p.leave guard (.overflowed o)
    | (.error (.host e), _) => p.die (.mapStack e)
    | (.ok stack, pool) =>
      let (id, s) := p.scheduler.allocateId
      let s := s.add (Thread.create id routine arg stack)
      let p := { p with scheduler := s, pool }.keep id ⟨.created id, p.signal.masked, .begin⟩
      (p.note (.created id s.stackSize)).leave guard (.thread id)

/-! ## waiting, leaving and ending -/

/-- Wait for a thread to end. -/
def join (id : ThreadId) (p : Process) : Process :=
  if ¬ p.isInitialised then p.answer (.refused .uninitialised)
  else
    let guard := p.signal.guard
    let p := p.block
    match p.scheduler.beginJoin id with
    | .error e => p.leave guard (.refused e)
    | .ok s => ({ p with scheduler := s }.note (.joining s.currentId id)).awaitEnd id guard

/-- Give the processor up. -/
def yield (p : Process) : Process :=
  let guard := p.signal.guard
  p.block.handOver (.yielding guard) fun q => q.leave guard .done

/-- End the running thread.  The initial thread waits for all others first and
then ends the process, as does a thread that leaves no other behind. -/
def exit (value : Word) (p : Process) : Process :=
  let p := p.block
  if ¬ p.isInitialised then p.terminate value
  else
    let id := p.scheduler.currentId
    if id = .initial then (p.note .initialExiting).awaitOthers value
    else
      match p.scheduler.retire value with
      | (none, s) => { p with scheduler := s }.terminate value
      | (some next, s) => ({ p with scheduler := s }.note (.exited id value)).load next.owner

/-- End another thread; a thread that cancels itself exits with zero. -/
def cancel (id : ThreadId) (p : Process) : Process :=
  if ¬ p.isInitialised then p.answer (.refused .uninitialised)
  else if id = p.scheduler.currentId then p.exit 0
  else
    let guard := p.signal.guard
    let p := p.block
    match p.scheduler.cancel id with
    | .error e => p.leave guard (.refused e)
    | .ok (released, s) =>
      ((({ p with scheduler := s }.release released).forget id).note (.cancelled id)).leave guard
        .done

/-- A routine that panics takes the process with it. -/
def panic (p : Process) : Process :=
  let p := p.block
  ((p.note (.panicked p.scheduler.currentId)).tell .flush).abort

/-! ## asking -/

/-- A critical section that only looks. -/
def observe (reply : Process → Reply) (p : Process) : Process :=
  p.block.leave p.signal.guard (reply p)

/-- Describe every thread in the log. -/
def debug (p : Process) : Process :=
  (p.scheduler.notices.foldl (fun q n => q.note n) p.block).leave p.signal.guard .done

/-! ## the host -/

/-- Set the timer and stop it again. -/
def arm (quantum : Duration) (p : Process) : Process :=
  match Timer.arm quantum with
  | .error e => { p with errno := e.number.getD p.errno }.answer (.hostFailed e)
  | .ok timer =>
    ({ p with timer := .stopped }.note (.timerArmed quantum)).answer (.timer timer)

/-- Carry out a call of the client code that holds the processor. -/
def perform (p : Process) : Call → Process
  | .init config => p.init config
  | .create routine arg => p.create routine arg
  | .join id => p.join id
  | .cancel id => p.cancel id
  | .yield => p.yield
  | .exit value => p.exit value
  | .panic => p.panic
  | .currentId => p.observe fun q => .thread q.scheduler.currentId
  | .isInitialised => p.answer (.flag p.isInitialised)
  | .liveStacks => p.answer (.count p.pool.live)
  | .debug => p.debug
  | .mask => p.block.answer (.guard p.signal.guard)
  | .release guard => p.leave guard .done
  | .unmask => p.unblock .done
  | .raise => { p with signal := p.signal.raise }.answerOpen .done
  | .arm quantum => p.arm quantum
  | .setErrno number => { p with errno := number }.answer .done
  | .abort => p.abort
  | .quit code => p.stop (.exit code)

end GreenThreads.Process
