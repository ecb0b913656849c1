import GreenThreads.Proofs.Books
import GreenThreads.Proofs.Views

/-!
# GreenThreads.Proofs.Alike

Processes that cannot be told apart by somebody who overlooks part of what is
there to be seen.

Two processes are `Alike` when they differ only in what the view overlooks, and
`Agree` when they also do the same next.  Whatever happens, the difference does
not come to light:

* `Alike.perform` — two processes that look alike agree after the same call;
* `Agree.advance` — they still do after a turn of the library;
* `Agree.follow` — and so they do after any moves.
-/

namespace GreenThreads

namespace Process

variable {v : View} {p q : Process}

/-- Two processes differ in what is overlooked only, but for what happens next. -/
structure Alike (v : View) (p q : Process) : Prop where
  scheduler : p.scheduler.view v = q.scheduler.view v
  pool : p.pool = q.pool
  host : p.host = q.host
  signal : p.signal = q.signal
  timer : p.timer = q.timer
  errno : v.errno p.errno = v.errno q.errno
  strand : p.strand = q.strand
  saved : ∀ id, Option.Rel v.Keeps (p.saved.lookup id) (q.saved.lookup id)
  journal : p.journal = q.journal

/-- Two processes differ in what is overlooked only. -/
structure Agree (v : View) (p q : Process) : Prop extends Alike v p q where
  control : v.Controls p.control q.control

theorem Alike.refl (v : View) (p : Process) : Alike v p p where
  scheduler := rfl
  pool := rfl
  host := rfl
  signal := rfl
  timer := rfl
  errno := rfl
  strand := rfl
  saved id := by
    cases p.saved.lookup id with
    | none => exact .none
    | some s => exact .some ⟨rfl, rfl, .same _⟩
  journal := rfl

theorem Agree.refl (v : View) (p : Process) : Agree v p p where
  toAlike := .refl v p
  control := by
    cases p.control with
    | client reply => exact .client rfl
    | arriving r => exact .arriving (.same r)
    | waiting r => exact .waiting (.same r)
    | _ => exact .stopped _

namespace Alike

/-! ## small steps -/

theorem isInitialised (h : Alike v p q) : p.isInitialised = q.isInitialised := by
  rw [Process.isInitialised, h.host]
  rfl

theorem currentId (h : Alike v p q) : p.scheduler.currentId = q.scheduler.currentId := by
  rw [← Scheduler.currentId_view v, h.scheduler, Scheduler.currentId_view]

theorem self (h : Alike v p q) : p.self = q.self := by
  rw [Process.self, Process.self, h.strand, h.host]

theorem ready (h : Alike v p q) :
    p.scheduler.ready.map (Thread.view v) = q.scheduler.ready.map (Thread.view v) :=
  (Scheduler.mk.inj h.scheduler).2.1

theorem tell (h : Alike v p q) (r : Record) : Alike v (p.tell r) (q.tell r) :=
  { h with journal := congrArg (· ++ [r]) h.journal }

theorem note (h : Alike v p q) (n : Notice) : Alike v (p.note n) (q.note n) := h.tell _

theorem block (h : Alike v p q) : Alike v p.block q.block :=
  { h with signal := congrArg PreemptSignal.block h.signal }

theorem release (h : Alike v p q) (freed : List Stack) :
    Alike v (p.release freed) (q.release freed) :=
  { h with pool := congrArg (StackPool.release freed) h.pool }

theorem withScheduler {s s' : Scheduler} (h : Alike v p q) (hs : s.view v = s'.view v) :
    Alike v { p with scheduler := s } { q with scheduler := s' } :=
  { h with scheduler := hs }

theorem withTimer (h : Alike v p q) (timer : Timer) :
    Alike v { p with timer } { q with timer } :=
  { h with timer := rfl }

theorem withErrno (h : Alike v p q) (he : v.errno e = v.errno e') :
    Alike v { p with errno := e } { q with errno := e' } :=
  { h with errno := he }

theorem reap (h : Alike v p q) : Alike v p.reap q.reap := by
  have hretired : p.scheduler.retired = q.scheduler.retired :=
    (Scheduler.mk.inj h.scheduler).2.2.2.1
  rw [Process.reap, Process.reap, Scheduler.reap, Scheduler.reap, hretired]
  exact (h.withScheduler (congrArg (fun s => s.reap.2) h.scheduler)).release _

theorem answer (h : Alike v p q) (hreply : v.reply r = v.reply r') :
    Agree v (p.answer r) (q.answer r') :=
  { h with control := .client hreply }

theorem stop (h : Alike v p q) (o : Outcome) : Agree v (p.stop o) (q.stop o) :=
  { h with control := .stopped o }

theorem terminate (h : Alike v p q) (value : Word) :
    Agree v (p.terminate value) (q.terminate value) :=
  (((h.note _).withTimer _).tell _).stop _

theorem die (h : Alike v p q) (failure : Fatal) : Agree v (p.die failure) (q.die failure) :=
  (((h.note _).tell _).tell _).stop _

theorem abort (h : Alike v p q) : Agree v p.abort q.abort := h.stop _

/-! ## machine states -/

theorem forget (h : Alike v p q) (id : ThreadId) : Alike v (p.forget id) (q.forget id) := by
  refine { h with saved := fun other => ?_ }
  rw [lookup_forget, lookup_forget]
  split
  · exact .none
  · exact h.saved other

theorem keep (h : Alike v p q) (id : ThreadId) (hs : v.Keeps s s') :
    Alike v (p.keep id s) (q.keep id s') := by
  refine { h with saved := fun other => ?_ }
  rw [lookup_keep, lookup_keep]
  split
  · exact .some hs
  · exact h.saved other

theorem store (h : Alike v p q) (id : ThreadId) (hr : v.Resumes r r') :
    Alike v (p.store id r) (q.store id r') :=
  h.keep id ⟨h.strand, congrArg PreemptSignal.masked h.signal, hr⟩

theorem load (h : Alike v p q) (id : ThreadId) : Agree v (p.load id) (q.load id) := by
  have hsaved := h.saved id
  have hforget := h.forget id
  unfold Process.load
  generalize p.saved.lookup id = found, q.saved.lookup id = found' at hsaved
  cases hsaved with
  | none => exact h.stop _
  | some hs =>
      exact { hforget with
        signal := by simp only [h.signal, hs.masked]
        strand := hs.strand
        control := .arriving hs.resumption }

/-! ## passing the processor on -/

theorem handOver {stay stay' : Process → Process} (h : Alike v p q) (hr : v.Resumes r r')
    (hstay : ∀ {s s' : Scheduler},
      Alike v { p with scheduler := s } { q with scheduler := s' } →
      Agree v (stay { p with scheduler := s }) (stay' { q with scheduler := s' })) :
    Agree v (p.handOver r stay) (q.handOver r' stay') := by
  have hrotate := congrArg Scheduler.rotate h.scheduler
  rw [Scheduler.rotate_view, Scheduler.rotate_view, Prod.mk.injEq] at hrotate
  obtain ⟨hswitch, hbooks⟩ := hrotate
  unfold Process.handOver
  generalize p.scheduler.rotate = turned, q.scheduler.rotate = turned' at hswitch hbooks
  obtain ⟨switch, s⟩ := turned
  obtain ⟨switch', s'⟩ := turned'
  obtain rfl : switch = switch' := hswitch
  cases switch with
  | none => exact hstay (h.withScheduler hbooks)
  | some switch => exact ((h.withScheduler hbooks).store _ hr).load _

theorem deliver (h : Alike v p q) (hreply : v.reply r = v.reply r') :
    Agree v (p.deliver r) (q.deliver r') := by
  unfold Process.deliver
  rw [h.isInitialised]
  split
  · have haccept : Alike v { p with signal := p.signal.accept }
        { q with signal := q.signal.accept } :=
      { h with signal := congrArg PreemptSignal.accept h.signal }
    refine haccept.handOver (.preempted h.errno hreply) fun hstay => ?_
    exact Alike.answer { hstay with signal := congrArg PreemptSignal.unblock hstay.signal } hreply
  · exact h.stop _

theorem answerOpen (h : Alike v p q) (hreply : v.reply r = v.reply r') :
    Agree v (p.answerOpen r) (q.answerOpen r') := by
  unfold Process.answerOpen
  rw [h.signal]
  split
  · exact h.deliver hreply
  · exact h.answer hreply

theorem unblock (h : Alike v p q) (hreply : v.reply r = v.reply r') :
    Agree v (p.unblock r) (q.unblock r') :=
  Alike.answerOpen { h with signal := congrArg PreemptSignal.unblock h.signal } hreply

theorem leave (h : Alike v p q) (guard : Guard) (hreply : v.reply r = v.reply r') :
    Agree v (p.leave guard r) (q.leave guard r') :=
  Alike.answerOpen { h with signal := congrArg (PreemptSignal.restore guard) h.signal } hreply

/-! ## waiting and going on -/

theorem isRunning (h : Alike v p q) (id : ThreadId) :
    p.scheduler.isRunning id = q.scheduler.isRunning id := by
  rw [← Scheduler.isRunning_view v, h.scheduler, Scheduler.isRunning_view]

theorem awaitEnd (h : Alike v p q) (target : ThreadId) (guard : Guard) :
    Agree v (p.awaitEnd target guard) (q.awaitEnd target guard) := by
  unfold Process.awaitEnd
  rw [h.isRunning target]
  split
  · exact h.handOver (.same _) fun hstay => { hstay with control := .waiting (.same _) }
  · have hend := congrArg (Scheduler.endJoin target) h.scheduler
    rw [Scheduler.endJoin_view, Scheduler.endJoin_view, Prod.mk.injEq] at hend
    obtain ⟨hstatus, hbooks⟩ := hend
    generalize p.scheduler.endJoin target = ended, q.scheduler.endJoin target = ended'
      at hstatus hbooks
    obtain ⟨status, s⟩ := ended
    obtain ⟨status', s'⟩ := ended'
    obtain rfl : status = status' := hstatus
    have hnext := h.withScheduler hbooks
    cases status with
    | error e => exact hnext.leave guard rfl
    | ok status =>
        have hself : s.currentId = s'.currentId := hnext.currentId
        simp only [hself]
        exact (hnext.note _).leave guard rfl

theorem awaitOthers (h : Alike v p q) (value : Word) :
    Agree v (p.awaitOthers value) (q.awaitOthers value) := by
  have hempty : p.scheduler.ready.isEmpty = q.scheduler.ready.isEmpty := by
    rw [← List.isEmpty_map (f := Thread.view v), h.ready, List.isEmpty_map]
  unfold Process.awaitOthers
  rw [hempty]
  split
  · exact h.terminate value
  · exact h.handOver (.same _) fun hstay => { hstay with control := .waiting (.same _) }

theorem beginRoutine (h : Alike v p q) : Agree v p.beginRoutine q.beginRoutine := by
  have hcurrent :
      p.scheduler.current.map (Thread.view v) = q.scheduler.current.map (Thread.view v) :=
    (Scheduler.mk.inj h.scheduler).1
  unfold Process.beginRoutine
  cases hp : p.scheduler.current with
  | none =>
      cases hq : q.scheduler.current with
      | none => exact h.die _
      | some t' => simp [hp, hq] at hcurrent
  | some t =>
      cases hq : q.scheduler.current with
      | none => simp [hp, hq] at hcurrent
      | some t' =>
          rw [hp, hq, Option.map_some, Option.map_some, Option.some.injEq] at hcurrent
          have htake := congrArg Thread.takeRoutine hcurrent
          rw [Thread.takeRoutine_view, Thread.takeRoutine_view, Prod.mk.injEq] at htake
          obtain ⟨hroutine, hleft⟩ := htake
          simp only [Option.map_some]
          generalize t.takeRoutine = taken, t'.takeRoutine = taken' at hroutine hleft
          obtain ⟨routine, u⟩ := taken
          obtain ⟨routine', u'⟩ := taken'
          have hbooks : { p.scheduler with current := some u }.view v =
              { q.scheduler with current := some u' }.view v := by
            have hput := congrArg (fun s => { s with current := some (u.view v) }) h.scheduler
            exact hput.trans <|
              congrArg (fun t => { q.scheduler.view v with current := some t }) hleft
          cases routine with
          | none =>
              obtain rfl := Option.map_eq_none_iff.mp hroutine.symm
              exact h.die _
          | some r =>
              obtain ⟨r, arg⟩ := r
              obtain ⟨⟨r', arg'⟩, rfl, hr⟩ := Option.map_eq_some_iff.mp hroutine.symm
              obtain ⟨hentry, rfl⟩ := Prod.mk.inj hr
              exact (h.withScheduler hbooks).unblock (v.reply_begin _ hentry.symm)

theorem resume (h : Alike v p q) (hr : v.Resumes r r') : Agree v (p.resume r) (q.resume r') := by
  cases hr with
  | same r =>
      cases r with
      | begin => exact h.beginRoutine
      | yielding guard => exact h.leave guard rfl
      | joining target guard => exact h.awaitEnd target guard
      | exiting value => exact h.awaitOthers value
      | preempted errno reply => exact (h.withErrno rfl).unblock rfl
  | preempted herrno hreply => exact (h.withErrno herrno).unblock hreply
  | @interrupted _ e hmerges hreply =>
      -- what was saved of `errno` is overlooked with the rest
      have herrno := v.errno_merges hmerges e q.errno
      exact Alike.unblock (p := { p with errno := e }) { h with errno := herrno } hreply

/-! ## calls -/

/-- A critical section ends with the mask that it began with. -/
theorem leaveBlock (h : Alike v p q) (hx : Alike v x y) (hreply : v.reply r = v.reply r') :
    Agree v (x.leave p.signal.guard r) (y.leave q.signal.guard r') := by
  rw [h.signal]
  exact hx.leave _ hreply

theorem allocateId (h : Alike v p q) :
    p.scheduler.allocateId.1 = q.scheduler.allocateId.1 ∧
      p.scheduler.allocateId.2.view v = q.scheduler.allocateId.2.view v := by
  have hallocate := congrArg Scheduler.allocateId h.scheduler
  rwa [Scheduler.allocateId_view, Scheduler.allocateId_view, Prod.mk.injEq] at hallocate

theorem init (h : Alike v p q) (config : Config) : Agree v (p.init config) (q.init config) := by
  have hinit : p.block.isInitialised = q.block.isInitialised := h.block.isInitialised
  obtain ⟨hid, hallocate⟩ := h.block.allocateId
  unfold Process.init
  simp only [hinit, hid]
  split
  · exact h.leaveBlock h.block rfl
  · split
    · exact h.leaveBlock h.block rfl
    · split
      · exact h.leaveBlock (h.block.withScheduler hallocate) rfl
      · next size _ =>
          generalize q.block.scheduler.allocateId.1 = id
          have hstart := congrArg (Scheduler.start ((Thread.hosted id).view v) size) hallocate
          rw [Scheduler.start_view, Scheduler.start_view, Prod.mk.injEq] at hstart
          obtain ⟨hfreed, hbooks⟩ := hstart
          generalize p.block.scheduler.allocateId.2.start (Thread.hosted id) size = started,
            q.block.scheduler.allocateId.2.start (Thread.hosted id) size = started'
            at hfreed hbooks ⊢
          obtain ⟨freed, s⟩ := started
          obtain ⟨freed', s'⟩ := started'
          obtain rfl : freed = freed' := hfreed
          have hstarted : Alike v { p.block with scheduler := s, host := some id }
              { q.block with scheduler := s', host := some id } :=
            { h.block with scheduler := hbooks, host := rfl }
          have hinstalled := (hstarted.release freed).note .handlerInstalled
          cases Timer.arm config.quantum with
          | error e => exact hinstalled.die _
          | ok timer => exact (((hinstalled.withTimer timer).note _).note _).unblock rfl

theorem create (h : Alike v p q) (hr : v.routine r = v.routine r') (arg : Word) :
    Agree v (p.create r arg) (q.create r' arg) := by
  have hsize : p.block.scheduler.stackSize = q.block.scheduler.stackSize :=
    (Scheduler.mk.inj h.scheduler).2.2.2.2.2
  have hpool : p.block.pool = q.block.pool := h.pool
  obtain ⟨hid, hallocate⟩ := h.block.allocateId
  unfold Process.create
  rw [h.isInitialised]
  split
  · exact h.answer rfl
  · simp only [hsize, hpool, hid]
    split
    · exact h.leaveBlock h.block rfl
    · exact h.block.die _
    · next stack pool _ =>
        generalize q.block.scheduler.allocateId.1 = id
        have hthread : (Thread.create id r arg stack).view v =
            (Thread.create id r' arg stack).view v := by
          simp only [Thread.create, Thread.view, Option.map_some, hr]
        have hadd := congrArg (Scheduler.add ((Thread.create id r arg stack).view v)) hallocate
        rw [Scheduler.add_view, hthread, Scheduler.add_view] at hadd
        have hsize' := (Scheduler.mk.inj hadd).2.2.2.2.2
        generalize p.block.scheduler.allocateId.2.add (.create id r arg stack) = s,
          q.block.scheduler.allocateId.2.add (.create id r' arg stack) = s' at hadd hsize' ⊢
        have hadded : Alike v { p.block with scheduler := s, pool }
            { q.block with scheduler := s', pool } :=
          { h.block with scheduler := hadd, pool := rfl }
        have hkeeps : v.Keeps ⟨.created id, p.block.signal.masked, .begin⟩
            ⟨.created id, q.block.signal.masked, .begin⟩ :=
          ⟨rfl, rfl, .same _⟩
        have hkept := hadded.keep id hkeeps
        rw [hsize']
        exact h.leaveBlock (hkept.note _) rfl

theorem join (h : Alike v p q) (id : ThreadId) : Agree v (p.join id) (q.join id) := by
  have hbegin := congrArg (Scheduler.beginJoin id) h.block.scheduler
  rw [Scheduler.beginJoin_view, Scheduler.beginJoin_view] at hbegin
  unfold Process.join
  rw [h.isInitialised]
  split
  · exact h.answer rfl
  · simp only
    generalize p.block.scheduler.beginJoin id = begun, q.block.scheduler.beginJoin id = begun'
      at hbegin
    cases begun with
    | error e =>
        cases begun' with
        | error e' =>
            obtain rfl : e = e' := Except.error.inj hbegin
            exact h.leaveBlock h.block rfl
        | ok s' => exact nomatch hbegin
    | ok s =>
        cases begun' with
        | error e' => exact nomatch hbegin
        | ok s' =>
            have hnext := h.block.withScheduler (Except.ok.inj hbegin)
            have hself : s.currentId = s'.currentId := hnext.currentId
            simp only [hself, h.signal]
            exact (hnext.note _).awaitEnd _ _

theorem yield (h : Alike v p q) : Agree v p.yield q.yield := by
  unfold Process.yield
  rw [h.signal]
  exact h.block.handOver (.same _) fun hstay => hstay.leave _ rfl

theorem exit (h : Alike v p q) (value : Word) : Agree v (p.exit value) (q.exit value) := by
  have hinit : p.block.isInitialised = q.block.isInitialised := h.block.isInitialised
  have hself : p.block.scheduler.currentId = q.block.scheduler.currentId := h.block.currentId
  have hretire := congrArg (Scheduler.retire value) h.block.scheduler
  rw [Scheduler.retire_view, Scheduler.retire_view, Prod.mk.injEq] at hretire
  obtain ⟨hnext, hbooks⟩ := hretire
  unfold Process.exit
  simp only [hinit, hself]
  split
  · exact h.block.terminate value
  · split
    · exact (h.block.note _).awaitOthers value
    · generalize p.block.scheduler.retire value = retired,
        q.block.scheduler.retire value = retired' at hnext hbooks ⊢
      obtain ⟨next, s⟩ := retired
      obtain ⟨next', s'⟩ := retired'
      obtain rfl : next = next' := hnext
      have hleft := h.block.withScheduler hbooks
      cases next with
      | none => exact hleft.terminate value
      | some next => exact (hleft.note _).load next.owner

theorem cancel (h : Alike v p q) (id : ThreadId) : Agree v (p.cancel id) (q.cancel id) := by
  have hcancel := congrArg (Scheduler.cancel id) h.block.scheduler
  rw [Scheduler.cancel_view, Scheduler.cancel_view] at hcancel
  unfold Process.cancel
  rw [h.isInitialised, h.currentId]
  split
  · exact h.answer rfl
  · split
    · exact h.exit 0
    · simp only
      generalize p.block.scheduler.cancel id = cancelled, q.block.scheduler.cancel id = cancelled'
        at hcancel ⊢
      cases cancelled with
      | error e =>
          cases cancelled' with
          | error e' =>
              obtain rfl : e = e' := Except.error.inj hcancel
              exact h.leaveBlock h.block rfl
          | ok r' => exact nomatch hcancel
      | ok r =>
          cases cancelled' with
          | error e' => exact nomatch hcancel
          | ok r' =>
              obtain ⟨freed, s⟩ := r
              obtain ⟨freed', s'⟩ := r'
              obtain ⟨hfreed, hbooks⟩ := Prod.mk.inj (Except.ok.inj hcancel)
              obtain rfl : freed = freed' := hfreed
              have hreleased := (h.block.withScheduler hbooks).release freed
              exact h.leaveBlock ((hreleased.forget id).note _) rfl

theorem panic (h : Alike v p q) : Agree v p.panic q.panic := by
  have hself : p.block.scheduler.currentId = q.block.scheduler.currentId := h.block.currentId
  unfold Process.panic
  simp only [hself]
  exact ((h.block.note _).tell _).abort

theorem observe (h : Alike v p q) (reply : Process → Reply) (hreply : reply p = reply q) :
    Agree v (p.observe reply) (q.observe reply) := by
  unfold Process.observe
  rw [hreply]
  exact h.leaveBlock h.block rfl

theorem notes (h : Alike v p q) (ns : List Notice) :
    Alike v (ns.foldl (fun p n => p.note n) p) (ns.foldl (fun p n => p.note n) q) := by
  induction ns generalizing p q with
  | nil => exact h
  | cons n ns ih => exact ih (h.note n)

theorem debug (h : Alike v p q) : Agree v p.debug q.debug := by
  have hnotices : p.scheduler.notices = q.scheduler.notices := by
    rw [← Scheduler.notices_view v, h.scheduler, Scheduler.notices_view]
  unfold Process.debug
  rw [hnotices]
  exact h.leaveBlock (h.block.notes _) rfl

theorem arm (h : Alike v p q) (quantum : Duration) : Agree v (p.arm quantum) (q.arm quantum) := by
  unfold Process.arm
  split
  · next e _ =>
      have herrno : v.errno (e.number.getD p.errno) = v.errno (e.number.getD q.errno) := by
        cases e.number with
        | none => exact h.errno
        | some number => rfl
      exact (h.withErrno herrno).answer rfl
  · exact ((h.withTimer _).note _).answer rfl

/-- **The same call, made in two processes that look alike, has effects that
agree.** -/
theorem perform (h : Alike v p q) (hcall : v.Calls c c') :
    Agree v (p.perform c) (q.perform c') := by
  cases hcall with
  | create hr arg => exact h.create hr arg
  | same c =>
      cases c with
      | init config => exact h.init config
      | create routine arg => exact h.create rfl arg
      | join id => exact h.join id
      | cancel id => exact h.cancel id
      | yield => exact h.yield
      | exit value => exact h.exit value
      | panic => exact h.panic
      | currentId =>
          exact h.observe (fun q => .thread q.scheduler.currentId) (by rw [h.currentId])
      | isInitialised => exact h.answer (by rw [h.isInitialised])
      | liveStacks => exact h.answer (by rw [h.pool])
      | debug => exact h.debug
      | mask => exact h.block.answer (by rw [h.signal])
      | release guard => exact h.leave guard rfl
      | unmask => exact h.unblock rfl
      | raise =>
          exact Alike.answerOpen { h with signal := congrArg PreemptSignal.raise h.signal } rfl
      | arm quantum => exact h.arm quantum
      | setErrno number => exact (h.withErrno rfl).answer rfl
      | abort => exact h.abort
      | quit code => exact h.stop _

end Alike

/-! ## turns and runs -/

namespace Agree

theorem isSettled (h : Agree v p q) : p.isSettled = q.isSettled := by
  have hcontrol := h.control
  unfold Process.isSettled
  generalize p.control = control, q.control = control' at hcontrol
  cases hcontrol <;> rfl

/-- **A turn of the library does not bring the difference to light.** -/
theorem advance (h : Agree v p q) : Agree v p.advance q.advance := by
  have hcontrol := h.control
  unfold Process.advance
  generalize p.control = control, q.control = control' at hcontrol
  cases hcontrol with
  | client | stopped => exact h
  | arriving hr => exact h.toAlike.reap.resume hr
  | waiting hr => exact h.toAlike.resume hr

theorem settleWithin (h : Agree v p q) (n : Nat) :
    Option.Rel (Agree v) (p.settleWithin n) (q.settleWithin n) := by
  induction n generalizing p q with
  | zero =>
      rw [Process.settleWithin, Process.settleWithin, h.isSettled]
      split
      · exact .some h
      · exact .none
  | succ n ih =>
      rw [Process.settleWithin, Process.settleWithin, h.isSettled]
      split
      · exact .some h
      · exact ih h.advance

theorem settle (h : Agree v p q) : Option.Rel (Agree v) p.settle q.settle := by
  have hlength : p.scheduler.ready.length = q.scheduler.ready.length := by
    rw [← List.length_map (f := Thread.view v), h.ready, List.length_map]
  rw [Process.settle, Process.settle, turnBound, turnBound, hlength]
  exact h.settleWithin _

theorem listen (h : Agree v p q) : Agree v { p with journal := [] } { q with journal := [] } :=
  { h with journal := rfl }

theorem move? (h : Agree v p q) (move : Move) :
    Option.Rel (Agree v) (p.move? move) (q.move? move) := by
  cases move with
  | call call =>
      have hcontrol := h.control
      rw [Process.move?, Process.move?]
      generalize p.control = control, q.control = control' at hcontrol
      cases hcontrol with
      | client => exact .some (h.toAlike.perform (.same call))
      | arriving | waiting | stopped => exact .none
  | turn =>
      rw [Process.move?, Process.move?, h.isSettled]
      split
      · exact .none
      · exact .some h.advance
  | listen => exact .some h.listen

/-- What is written after a step, if it is the same as it is seen. -/
theorem seen (h : Agree v p q) (hτ : τ.map v.moment = τ'.map v.moment) :
    (p.seen τ).map v.moment = (q.seen τ').map v.moment := by
  have hcontrol := h.control
  unfold Process.seen
  rw [h.toAlike.self]
  generalize p.control = control, q.control = control' at hcontrol
  cases hcontrol with
  | client hreply => rw [List.map_cons, List.map_cons, hτ, View.moment, View.moment, hreply]
  | arriving | waiting | stopped => exact hτ

theorem transcribe (h : Agree v p q) (h' : Agree v p' q') (move : Move)
    (hτ : τ.map v.moment = τ'.map v.moment) :
    (p.transcribe move p' τ).map v.moment = (q.transcribe move q' τ').map v.moment := by
  cases move with
  | call call =>
      apply h'.seen
      rw [h.toAlike.self, List.map_cons, List.map_cons, hτ]
  | turn => exact h'.seen hτ
  | listen => exact hτ

/-- **Whatever moves are made, they can be made in both, and what is written and
where they lead look the same.** -/
theorem follow (h : Agree v p q) (hτ : τ.map v.moment = τ'.map v.moment) (moves : List Move) :
    Option.Rel (fun a b => a.1.map v.moment = b.1.map v.moment ∧ Agree v a.2 b.2)
      (p.follow τ moves) (q.follow τ' moves) := by
  induction moves generalizing p q τ τ' with
  | nil => exact .some ⟨hτ, h⟩
  | cons move moves ih =>
      have hmove := h.move? move
      rw [Process.follow, Process.follow]
      generalize p.move? move = next, q.move? move = next' at hmove
      cases hmove with
      | none => exact .none
      | some hnext => exact ih hnext (h.transcribe hnext move hτ)

end Agree

end Process

end GreenThreads
