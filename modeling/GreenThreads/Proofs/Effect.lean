import GreenThreads.Proofs.Books

/-!
# GreenThreads.Proofs.Effect

What calls and turns can do, as relations between the process before and the
process after.

* `CallEffect` — a call is answered at once, makes a thread, ends a thread,
  ends its caller, or has its caller go on later;
* `Proceeds` — a thread goes on: its call is answered, or it is switched out
  again;
* `EarlyEffect` — what a call can do before the scheduler is started.

A call that has to wait is answered later, by a turn.  `Waits` relates it to
where its caller goes on, and `Due` to what the caller is told in the end.

The two ways to part with the processor are here as well: `handsOver_of_ready`
and `retires_of_ready`.
-/

namespace GreenThreads

/-! ## calls that are answered later -/

/-- The calls that may let other threads run and tell nothing afterwards. -/
def Call.givesWay : Call → Bool
  | .yield | .raise | .unmask | .release _ => true
  | _ => false

/-- What a thread may be told after others have run: its routine, if it has
made no call yet, and otherwise the answer to its call.  `ended` says how
threads have ended. -/
inductive Due (ended : List (ThreadId × ExitStatus)) : Option Call → Reply → Prop where
  | begun : Due ended none (.begin routine arg)
  | done {call : Call} (h : call.givesWay) : Due ended (some call) .done
  | joined {id : ThreadId} (h : (id, status) ∈ ended) :
      Due ended (some (.join id)) (.status status)

/-- Where a thread goes on that has made a call, or has not run yet. -/
inductive Waits (ended : List (ThreadId × ExitStatus)) : Option Call → Resumption → Prop where
  | begun : Waits ended none .begin
  | yielding {guard : Guard} : Waits ended (some .yield) (.yielding guard)
  | joining {guard : Guard} : Waits ended (some (.join target)) (.joining target guard)
  | exiting {call : Call} (h : call.exitValue? .initial = some value) :
      Waits ended (some call) (.exiting value)
  | preempted (h : Due ended call reply) : Waits ended call (.preempted errno reply)

theorem Due.mono (h : Due ended call reply) (hsub : ended ⊆ ended') : Due ended' call reply := by
  cases h with
  | begun => exact .begun
  | done h => exact .done h
  | joined h => exact .joined (hsub h)

/-- Nothing is refused that late. -/
theorem Due.ne_refused (h : Due ended call reply) (e : ThreadError) : reply ≠ .refused e := by
  cases h <;> simp

theorem Waits.mono (h : Waits ended call r) (hsub : ended ⊆ ended') : Waits ended' call r := by
  cases h with
  | begun => exact .begun
  | yielding => exact .yielding
  | joining => exact .joining
  | exiting h => exact .exiting h
  | preempted h => exact .preempted (h.mono hsub)

/-- The calls that only look, or only concern the host. -/
def Call.isPlain : Call → Bool
  | .currentId | .isInitialised | .liveStacks | .debug | .mask | .arm _ | .setErrno _ => true
  | _ => false

/-- Whether a reply tells that the call has made a thread, or ended one. -/
def Call.changes : Call → Reply → Bool
  | .create .., .thread _ => true
  | .cancel _, .done => true
  | _, _ => false

/-- Whether a reply tells how a thread has ended. -/
def Reply.isStatus : Reply → Bool
  | .status _ => true
  | _ => false

/-- Whether a reply tells of no thread that was made or has ended. -/
def Call.uneventful (call : Call) (reply : Reply) : Bool :=
  !call.changes reply && !reply.isStatus

theorem Call.changes_of_uneventful {call : Call} (h : call.uneventful reply) :
    call.changes reply = false := by
  simp_all [uneventful]

/-- What is told later is no change of the caller's own making. -/
theorem Due.changes_eq_false {call : Call} (h : Due ended (some call) reply) :
    call.changes reply = false := by
  cases h with
  | done h => cases call <;> first | rfl | contradiction
  | joined h => rfl

/-! ## descriptors of the current thread -/

/-- The descriptor while the thread's own code runs. -/
def Thread.active (t : Thread) : Thread := { t with routine := none, joining := .nobody }

/-- The descriptor while the thread is to go on with `r`, once it has run. -/
def Thread.pausedAt (r : Resumption) (t : Thread) : Thread :=
  { t with routine := none, joining := r.target }

theorem Thread.active_eq {t : Thread} (hroutine : t.routine = none)
    (hjoining : t.joining = .nobody) : t.active = t := by
  cases t
  simp only at hroutine hjoining
  rw [active, hroutine, hjoining]

theorem Thread.goesOn_pausedAt (t : Thread) (ids : List ThreadId) (hr : r ≠ .begin)
    (hknown : ∀ target guard, r = .joining target guard → target ∈ ids ∧ target ≠ t.id)
    (hinitial : ∀ value, r = .exiting value → t.id = .initial) : (t.pausedAt r).GoesOn ids r where
  routine := by simp [pausedAt, hr]
  joining := rfl
  known := hknown
  initial := hinitial

namespace Process

/-! ## effects -/

/-- The current thread `c` goes on with `call`, or with its first turn: it is
told what is due, or it is switched out again, or the process is over. -/
inductive Proceeds (p : Process) (c : Thread) (call : Option Call) (q : Process) : Prop where
  | answered (h : Due p.scheduler.ended call reply) (hq : (p.withCurrent c.active).Answers reply q)
  | paused (h : Waits p.scheduler.ended call r) (hr : r ≠ .begin)
      (hgoes : (c.pausedAt r).GoesOn p.scheduler.ids r)
      (hq : (p.withCurrent (c.pausedAt r)).HandsOver r n s q)
  | stopped (h : q.control = .over outcome) (hpool : q.pool = p.pool)

/-- What a call of the current thread `c` does. -/
inductive CallEffect (p : Process) (c : Thread) (call : Call) (q : Process) : Prop where
  | answered (hexit : call.exitValue? c.id = none) (h : call.uneventful reply)
      (hq : p.Answers reply q)
  | proceeds (hexit : call.exitValue? c.id = none ∨ c.id = .initial)
      (hq : p.Proceeds c (some call) q)
  | creates (hcall : call = .create routine arg) (hq : p.Creates routine arg stack q)
  | cancels {id : ThreadId} (hcall : call = .cancel id) (hid : id ≠ c.id)
      (hq : p.Cancels id freed q)
  | retires (hexit : call.exitValue? c.id = some v) (hid : c.id ≠ .initial)
      (hq : p.Retires v n s q)
  | stopped (h : q.control = .over outcome) (hpool : q.pool = p.pool)

/-- What a call does before the scheduler is started. -/
inductive EarlyEffect (p : Process) (call : Call) (q : Process) : Prop where
  | answered (h : call.uneventful reply) (hq : p.Answers reply q)
  | overflowed (hcall : call = .init config) (quiet : q.signal.arrives = false)
      (hq : q =
        { p with scheduler := p.scheduler.allocateId.2, control := .client (.overflowed cause) })
  | starts (hcall : call = .init config) (hq : p.Starts size q) (h : q.control = .client .done)
      (quiet : q.signal.arrives = false)
  | stopped (h : q.control = .over outcome) (hpool : q.pool = p.pool)

/-- How the call to start comes out where nothing has been started.  The identity
is used up before the stack size is worked out. -/
inductive Inits (p : Process) (config : Config) (q : Process) : Prop where
  | refused (hvalid : config.hasValidQuantum = false)
      (hq : q = p.answer (.refused .invalidQuantum))
  | overflowed (hsize : config.stackSize = .error cause)
      (hq : q =
        { p with scheduler := p.scheduler.allocateId.2, control := .client (.overflowed cause) })
  | starts (hsize : config.stackSize = .ok size) (hq : p.Starts size q) (hsignal : q.signal = {})
      (h : q.control = .client .done)
  | stopped (h : q.control = .over outcome) (hpool : q.pool = p.pool)

/-! ## passing the processor on -/

/-- A thread whose machine state is saved can be switched to. -/
theorem load_of_lookup {p : Process} {id : ThreadId} (h : p.saved.lookup id = some s) :
    p.load id =
      { p.forget id with
        strand := s.strand
        signal := { p.signal with masked := s.masked }
        control := .arriving s.resumption } := by
  simp [load, h]

/-- A thread that is alone stays. -/
theorem handOver_nil {p : Process} (h : p.scheduler.ready = []) :
    p.handOver r stay = stay p := by
  simp [handOver, Scheduler.rotate_nil h]

/-- A signal that arrives at a thread that is alone is spent, and that is all. -/
theorem deliver_of_alone {p : Process} (hinit : p.isInitialised = true)
    (hr : p.scheduler.ready = []) (reply : Reply) :
    p.deliver reply = { p with signal := {}, control := .client reply } := by
  have hready : { p with signal := p.signal.accept }.scheduler.ready = [] := hr
  rw [deliver, if_pos hinit, handOver_nil hready]
  rfl

theorem unblock_of_alone {p : Process} (hinit : p.isInitialised = true)
    (hr : p.scheduler.ready = []) (reply : Reply) :
    p.unblock reply = { p with signal := {}, control := .client reply } := by
  rw [unblock, answerOpen]
  split
  · exact deliver_of_alone (p := { p with signal := p.signal.unblock }) hinit hr reply
  · next hquiet =>
      have hsignal : p.signal.unblock = {} := by
        simp_all [PreemptSignal.arrives, PreemptSignal.unblock]
      rw [hsignal, answer]

namespace Books

variable {p q : Process} {c n : Thread} {r : Resumption} {s : Saved}

/-- What is saved is the machine state of the current thread, and what is loaded is
that of the first one in the queue. -/
theorem handOver_cons (h : p.Books c) (hr : p.scheduler.ready = n :: rest) (r : Resumption)
    (stay : Process → Process) :
    p.handOver r stay =
      ({ p with scheduler := p.scheduler.rotate.2 }.store c.id r).load n.id := by
  have hn : n.isRunnable := h.placed.ready (by simp [hr])
  obtain ⟨save, load, hsave, hload, hswitch⟩ :=
    Switch.exists_of_between (h.placed.current h.current) hn
  rw [handOver, Scheduler.rotate_cons h.placed h.current hr, hswitch]
  simp only [Thread.owner_of_registers? hsave, Thread.owner_of_registers? hload]

/-- A thread that is not alone hands the processor over. -/
theorem handsOver_of_ready (h : p.Books c) (hmasked : p.signal.masked = true)
    (hr : p.scheduler.ready = n :: rest) : ∃ s, p.HandsOver r n s (p.handOver r stay) := by
  have hn : n ∈ p.scheduler.ready := by simp [hr]
  obtain ⟨s, hs, -, -, -⟩ := h.saved n hn
  have hne : n.id ≠ c.id := (h.placed.current_ne h.current hn).symm
  have hkept : ({ p with scheduler := p.scheduler.rotate.2 }.store c.id r).saved.lookup n.id =
      some s := by
    rw [store, lookup_keep, if_neg hne]
    exact hs
  refine ⟨s, ?_⟩
  rw [h.handOver_cons hr, load_of_lookup hkept]
  constructor
  · rw [hr]; rfl
  · exact hs
  · rfl
  · rfl
  · rfl
  · rfl
  · intro id
    rw [lookup_forget, store, lookup_keep, h.currentId_eq, hmasked]
  · rfl
  · rfl

/-- A thread that is not alone can end. -/
theorem retires_of_ready (h : p.Books c) (hr : p.scheduler.ready = n :: rest) (notice : Notice) :
    ∃ s, p.Retires v n s
      (({ p with scheduler := (p.scheduler.retire v).2 }.note notice).load n.id) := by
  have hn : n ∈ p.scheduler.ready := by simp [hr]
  obtain ⟨s, hs, -, -, -⟩ := h.saved n hn
  have hkept : ({ p with scheduler := (p.scheduler.retire v).2 }.note notice).saved.lookup n.id =
      some s := hs
  refine ⟨s, ?_⟩
  rw [load_of_lookup hkept]
  constructor
  · rw [hr]; rfl
  · exact hs
  · rfl
  · rfl
  · rfl
  · rfl
  · intro id
    rw [lookup_forget]
    rfl
  · rfl
  · rfl

/-! ## answers -/

theorem isInitialised (h : p.Books c) : p.isInitialised = true := by
  obtain ⟨id, -, hhost⟩ := h.host
  rw [Process.isInitialised, hhost]
  rfl

/-- Before client code sees its reply, the signal may take the processor away
from it once more. -/
theorem answerOpen_cases (h : p.Books c) (reply : Reply) :
    p.Answers reply (p.answerOpen reply) ∨
      ∃ errno n s, p.HandsOver (.preempted errno reply) n s (p.answerOpen reply) := by
  by_cases harrives : p.signal.arrives = true
  · have hopen : p.answerOpen reply = p.deliver reply := by rw [answerOpen, if_pos harrives]
    have hsame : p.SameBooks { p with signal := p.signal.accept } := sameBooks_with ..
    rw [hopen, deliver, if_pos h.isInitialised]
    cases hr : p.scheduler.ready with
    | nil =>
        have hnone : { p with signal := p.signal.accept }.scheduler.ready = [] := hr
        rw [handOver_nil hnone]
        exact .inl ⟨sameBooks_with .., rfl, rfl⟩
    | cons n rest =>
        obtain ⟨s, hs⟩ := (h.congr hsame).handsOver_of_ready rfl hr
        exact .inr ⟨p.errno, n, s, hsame.handsOver hs⟩
  · have hopen : p.answerOpen reply = p.answer reply := by rw [answerOpen, if_neg harrives]
    rw [hopen]
    exact .inl ⟨sameBooks_with .., rfl, Bool.eq_false_iff.mpr harrives⟩

/-- The same of a process that has been prepared for the reply. -/
theorem answerOpen_of_sameBooks (h : p.Books c) (hq : p.SameBooks q) (reply : Reply) :
    p.Answers reply (q.answerOpen reply) ∨
      ∃ errno n s, p.HandsOver (.preempted errno reply) n s (q.answerOpen reply) := by
  cases (h.congr hq).answerOpen_cases reply with
  | inl hanswers => exact .inl (hq.answers hanswers)
  | inr hswitches =>
      obtain ⟨errno, n, s, hs⟩ := hswitches
      exact .inr ⟨errno, n, s, hq.handsOver hs⟩

/-- A thread whose code is to run again is told what is due. -/
theorem proceeds_answerOpen (h : p.Books c) (hdue : Due p.scheduler.ended call reply)
    (hq : (p.withCurrent c.active).SameBooks q) : p.Proceeds c call (q.answerOpen reply) := by
  have hactive : (p.withCurrent c.active).Books c.active := h.setCurrent rfl rfl rfl
  cases hactive.answerOpen_of_sameBooks hq reply with
  | inl hanswers => exact .answered hdue hanswers
  | inr hswitches =>
      obtain ⟨errno, n, s, hs⟩ := hswitches
      have hgoes := c.goesOn_pausedAt p.scheduler.ids (r := .preempted errno reply)
        (by simp) (by simp) (by simp)
      exact .paused (.preempted hdue) (by simp) hgoes hs

theorem proceeds_leave (h : p.Books c) (hdue : Due p.scheduler.ended call reply)
    (hq : (p.withCurrent c.active).SameBooks q) (guard : Guard) :
    p.Proceeds c call (q.leave guard reply) :=
  h.proceeds_answerOpen hdue (hq.trans (sameBooks_with ..))

theorem proceeds_unblock (h : p.Books c) (hdue : Due p.scheduler.ended call reply)
    (hq : (p.withCurrent c.active).SameBooks q) : p.Proceeds c call (q.unblock reply) :=
  h.proceeds_answerOpen hdue (hq.trans (sameBooks_with ..))

end Books

end Process

end GreenThreads
