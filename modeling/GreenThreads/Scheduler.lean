import GreenThreads.Notice
import GreenThreads.ThreadError

/-!
# GreenThreads.Scheduler

The bookkeeping of a round-robin scheduler.  Every thread is in one of three
places: it is current, it waits in the ready queue, or it has ended and stays
in the queue of zombies, where it can still be joined.

* `rotate` sends the current thread to the back of the ready queue and makes
  the front one current.
* `retire` ends the current thread.  It is still running on its stack at that
  moment, so the stack is only set aside; `reap` gives it back later.
* `cancel` ends a thread that waits in the ready queue, and gives up its
  stack at once.
* `beginJoin` and `endJoin` record and clear whom the current thread waits
  for.

Stacks that an operation gives up are part of its result: the scheduler does
not keep the host's books.
-/

namespace GreenThreads

/-- The bookkeeping of the threads. -/
structure Scheduler where
  current : Option Thread := none
  /-- The threads waiting to run, the next one first. -/
  ready : List Thread := []
  /-- The threads that have ended, the earliest first. -/
  zombies : List Thread := []
  /-- The stacks of finished threads that have not been given back. -/
  retired : List Stack := []
  /-- The identity to be given out next. -/
  nextId : ThreadId := .initial
  /-- The size of each new stack. -/
  stackSize : Nat := 0
  deriving DecidableEq, Repr

/-- A change of the running thread: where its machine state is to be saved, and
where that of the next one is to be loaded from. -/
structure Switch where
  save : Registers
  load : Registers
  deriving DecidableEq, Repr

namespace Scheduler

/-! ## adding threads -/

/-- Make `initial` the only thread.  The stacks of all threads there were are
given up. -/
def start (initial : Thread) (stackSize : Nat) (s : Scheduler) : List Stack × Scheduler :=
  ((s.current.toList ++ s.ready ++ s.zombies).filterMap Thread.stack? ++ s.retired,
    { s with current := some initial, ready := [], zombies := [], retired := [], stackSize })

/-- Give out an identity. -/
def allocateId (s : Scheduler) : ThreadId × Scheduler :=
  (s.nextId, { s with nextId := s.nextId.next })

/-- Queue a thread behind all that are ready. -/
def add (t : Thread) (s : Scheduler) : Scheduler := { s with ready := s.ready ++ [t] }

/-! ## looking threads up -/

/-- The identity of the current thread, or nobody. -/
def currentId (s : Scheduler) : ThreadId :=
  match s.current with
  | none => .nobody
  | some t => t.id

/-- The thread of a given identity among those that are not current. -/
def find? (id : ThreadId) (s : Scheduler) : Option Thread :=
  (s.ready ++ s.zombies).find? fun t => t.id = id

/-- Whether the thread of a given identity has not ended. -/
def isRunning (id : ThreadId) (s : Scheduler) : Bool :=
  if s.currentId = id then true
  else
    match s.find? id with
    | none => false
    | some t => t.state = .running

/-! ## switching -/

/-- The first thread in a queue that can be switched to, what is queued behind
it, and the threads passed over added to the zombies. -/
def nextRunnable : List Thread → List Thread → Option Thread × List Thread × List Thread
  | [], zombies => (none, [], zombies)
  | t :: rest, zombies =>
    if t.isRunnable then (some t, rest, zombies) else nextRunnable rest (zombies ++ [t])

/-- Take the first thread that can be switched to out of the ready queue. -/
def popRunnable (s : Scheduler) : Option Thread × Scheduler :=
  match nextRunnable s.ready s.zombies with
  | (next, ready, zombies) => (next, { s with ready, zombies })

theorem isRunnable_of_nextRunnable {queue zombies : List Thread}
    (h : (nextRunnable queue zombies).1 = some n) : n.isRunnable := by
  induction queue generalizing zombies with
  | nil => exact nomatch h
  | cons t rest ih =>
      rw [nextRunnable] at h
      split at h
      · next ht => exact Option.some.inj h ▸ ht
      · exact ih h

/-- Take the next thread to run out of the ready queue, with its registers.  A
thread that had none would join the zombies. -/
def popNext (s : Scheduler) : Option (Thread × Registers) × Scheduler :=
  match s.popRunnable with
  | (none, s) => (none, s)
  | (some n, s) =>
    match n.registers? with
    | none => (none, { s with zombies := s.zombies ++ [n] })
    | some load => (some ({ n with state := .running }, load), s)

/-- A thread that is taken out of the queue has registers and is running, so
nothing is done to it. -/
theorem popNext_eq (s : Scheduler) :
    s.popNext =
      (s.popRunnable.1.bind fun n => n.registers?.map fun load => (n, load), s.popRunnable.2) := by
  have hrunnable (n : Thread) (h : s.popRunnable.1 = some n) : n.isRunnable :=
    isRunnable_of_nextRunnable h
  unfold popNext
  generalize s.popRunnable = popped at hrunnable
  obtain ⟨_ | n, s'⟩ := popped
  · rfl
  · have hn := hrunnable n rfl
    obtain ⟨load, hload⟩ := Thread.exists_registers hn
    simp [hload, ← (Thread.isRunnable_iff.mp hn).1]

theorem registers?_of_popNext {s : Scheduler} (h : s.popNext = (some (n, load), s')) :
    n.registers? = some load := by
  rw [popNext_eq] at h
  obtain ⟨m, -, hm⟩ := Option.bind_eq_some_iff.mp (Prod.mk.inj h).1
  obtain ⟨load', hload, heq⟩ := Option.map_eq_some_iff.mp hm
  obtain ⟨rfl, rfl⟩ := Prod.mk.inj heq
  exact hload

/-- Send the current thread to the back of the ready queue and make the next
one current.  There is no switch when there is no other thread to run. -/
def rotate (s : Scheduler) : Option Switch × Scheduler :=
  match s.current with
  | none => (none, s)
  | some c =>
    match c.registers? with
    | none => (none, s)
    | some save =>
      match s.popNext with
      | (none, s) => (none, s)
      | (some (n, load), s) =>
        (some ⟨save, load⟩, { s with current := some n, ready := s.ready ++ [c] })

/-- End the current thread with a value and make the next one current, whose
registers are returned.  Nothing ends when there is no other thread to run. -/
def retire (value : Word) (s : Scheduler) : Option Registers × Scheduler :=
  match s.current with
  | none => (none, s)
  | some c =>
    match s.popNext with
    | (none, s) => (none, s)
    | (some (n, load), s) =>
      (some load,
        { s with
          current := some n
          zombies := s.zombies ++ [c.finish value]
          retired := s.retired ++ c.stack?.toList })

/-- Give up the stacks of finished threads. -/
def reap (s : Scheduler) : List Stack × Scheduler := (s.retired, { s with retired := [] })

/-! ## cancelling -/

/-- End a thread that waits in the ready queue.  Its stack is given up. -/
def cancel (id : ThreadId) (s : Scheduler) : Except ThreadError (List Stack × Scheduler) :=
  match s.ready.find? fun t => t.id = id with
  | none =>
    match s.find? id with
    | none => .error (.unknownThread id)
    | some _ => .error (.alreadyTerminated id)
  | some t =>
    if t.state = .running then
      .ok (t.stack?.toList,
        { s with
          ready := s.ready.eraseP fun t => t.id = id
          zombies := s.zombies ++ [t.cancel] })
    else .error (.alreadyTerminated id)

/-! ## joining -/

/-- The same threads, with the current one waiting for `target`. -/
def setJoining (target : ThreadId) (s : Scheduler) : Scheduler :=
  { s with current := s.current.map fun t => { t with joining := target } }

/-- Record that the current thread waits for another one.  It may not wait for
itself, nor for a thread that waits for it. -/
def beginJoin (id : ThreadId) (s : Scheduler) : Except ThreadError Scheduler :=
  if id = s.currentId then .error (.selfJoin id)
  else
    match s.find? id with
    | none => .error (.unknownThread id)
    | some target =>
      if target.joining = s.currentId then .error (.reciprocalJoin id)
      else .ok (s.setJoining id)

/-- Clear the wait of the current thread, and say how the other one ended. -/
def endJoin (id : ThreadId) (s : Scheduler) : Except ThreadError ExitStatus × Scheduler :=
  let s := s.setJoining .nobody
  match (s.find? id).bind Thread.exitStatus with
  | none => (.error (.unknownThread id), s)
  | some status => (.ok status, s)

/-! ## describing -/

/-- The threads in the order in which they are described. -/
def threads (s : Scheduler) : List Thread := s.current.toList ++ s.ready ++ s.zombies

/-- A description of every thread, and of the stacks set aside if there are
any. -/
def notices (s : Scheduler) : List Notice :=
  s.threads.map Thread.notice ++
    if s.retired.isEmpty then [] else [.retiredStacks s.retired.length]

end Scheduler

end GreenThreads
