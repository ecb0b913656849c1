import GreenThreads.Proofs.Alike
import GreenThreads.Proofs.Masks
import GreenThreads.Proofs.Pending
import GreenThreads.Proofs.Routines

/-!
# GreenThreads.Proofs.Preemption

A thread that is preempted yields, but for `errno`.

Both hand the processor over, but they put the mask back in different ways: a
yield by its guard, and a preemption when its handler returns.  What comes of
it is the same:

* `deliver_agrees` — a process in which the signal arrives, and one in which the
  thread yields, can only be told apart by `errno`;
* `Underway.interrupted` — a thread that was preempted finds `errno` as it has
  left it, whoever has changed it meanwhile.

The main statement is `preemption_is_yield`.
-/

namespace GreenThreads

/-- The view of somebody who overlooks `errno`, and that a thread was preempted
when it was about to be told `told`. -/
def View.interrupted (told : Reply) : View where
  errno _ := 0
  reply r := if r = told then .done else r
  merges := true
  reply_begin {r r'} arg h := by
    obtain rfl : r = r' := h
    rfl
  errno_merges _ _ _ := rfl

theorem Scheduler.view_eq (v : View) (h : v.routine = id) (s : Scheduler) : s.view v = s := by
  have hthread : Thread.view v = id := by
    funext t
    simp [Thread.view, h]
  simp [Scheduler.view, hthread]

namespace Process

variable {τ : Transcript} {p q : Process} {c n : Thread} {told : Reply}

/-! ## a handover of either kind -/

/-- **A preemption is a yield**, for whoever overlooks `errno`. -/
theorem deliver_agrees (hinit : p.isInitialised = true) (hopen : p.signal = {}) (told : Reply) :
    Agree (.interrupted told) (p.deliver told) (p.perform .yield) := by
  have hreply : (View.interrupted told).reply told = (View.interrupted told).reply .done := by
    simp [View.interrupted]
  have hmasked : { p with signal := p.signal.accept } = p.block := by rw [block, hopen]; rfl
  have hguard : p.signal.guard = ⟨false⟩ := by rw [hopen]; rfl
  rw [deliver, if_pos hinit, hmasked, perform, yield, hguard]
  refine (Alike.refl _ p.block).handOver (.interrupted rfl hreply) fun {s s'} hstay => ?_
  have hquiet : ({ p.block with scheduler := s' }.signal.restore ⟨false⟩).arrives = false := by
    simp [block, hopen, PreemptSignal.block, PreemptSignal.restore, PreemptSignal.unblock,
      PreemptSignal.arrives]
  rw [leave, answerOpen, hquiet]
  exact Alike.answer { hstay with signal := rfl } hreply

/-- Nothing but `errno` tells the two processes apart, now or in what was saved of
it. -/
structure SameButErrno (p q : Process) : Prop where
  scheduler : p.scheduler = q.scheduler
  pool : p.pool = q.pool
  host : p.host = q.host
  signal : p.signal = q.signal
  timer : p.timer = q.timer
  strand : p.strand = q.strand
  journal : p.journal = q.journal
  settled : p.isSettled = q.isSettled
  outcome : ∀ outcome, p.control = .over outcome ↔ q.control = .over outcome

theorem Agree.sameButErrno (h : Agree (.interrupted told) p q) : p.SameButErrno q where
  scheduler := by
    have hbooks := h.scheduler
    rwa [Scheduler.view_eq _ rfl, Scheduler.view_eq _ rfl] at hbooks
  pool := h.pool
  host := h.host
  signal := h.signal
  timer := h.timer
  strand := h.strand
  journal := h.journal
  settled := h.isSettled
  outcome outcome := by
    have hcontrol := h.control
    generalize p.control = control, q.control = control' at hcontrol
    cases hcontrol <;> simp

/-- What is written of a run, with `told` read as the answer of a yield. -/
def readAs (told : Reply) (τ : Transcript) : Transcript := τ.map (View.interrupted told).moment

/-- Whatever moves are made, they can be made in both processes, and nothing but
`errno` tells apart where they lead. -/
def Indistinct (told : Reply) (p q : Process) : Prop :=
  ∀ moves, Option.Rel (fun a b => readAs told a.1 = readAs told b.1 ∧ a.2.SameButErrno b.2)
    (p.follow [] moves) (q.follow [] moves)

theorem Agree.indistinct (h : Agree (.interrupted told) p q) : Indistinct told p q := by
  intro moves
  have hfollow := h.follow (rfl : readAs told [] = readAs told []) moves
  generalize p.follow [] moves = a, q.follow [] moves = b at hfollow
  cases hfollow with
  | none => exact .none
  | some hrel => exact .some ⟨hrel.1, hrel.2.sameButErrno⟩

/-- The answer of a yield itself is read as it is. -/
theorem readAs_done (τ : Transcript) : readAs .done τ = τ := by
  have hmoment : (View.interrupted .done).moment = id := by
    funext m
    cases m <;> simp +contextual [View.moment, View.interrupted, eq_comm]
  rw [readAs, hmoment, List.map_id]

/-! ## the signal is raised -/

theorem perform_raise (hinit : p.isInitialised = true) (hopen : p.signal.masked = false) :
    p.perform .raise = p.deliver .done := by
  have harrives : p.raised.signal.arrives = true := by
    simp [raised, PreemptSignal.raise, PreemptSignal.arrives, hopen]
  have hraise : p.perform .raise = p.raised.answerOpen .done := rfl
  rw [hraise, answerOpen, if_pos harrives, deliver_raised hinit]

theorem perform_raise_masked (hmasked : p.signal.masked = true) :
    p.perform .raise = p.raised.answer .done := by
  have hquiet : p.raised.signal.arrives = false := by
    simp [raised, PreemptSignal.raise, PreemptSignal.arrives, hmasked]
  have hraise : p.perform .raise = p.raised.answerOpen .done := rfl
  rw [hraise, answerOpen, hquiet]
  rfl

/-- While the signal is held off it is raised once, however often that is. -/
theorem follow_raises (τ : Transcript) (hclient : p.control = .client reply)
    (hmasked : p.signal.masked = true) (n : Nat) :
    ∃ τ', p.follow τ (List.replicate (n + 1) (.call .raise)) =
      some (τ', p.raised.answer .done) := by
  induction n generalizing p τ reply with
  | zero =>
      rw [List.replicate, follow, move?, hclient, perform_raise_masked hmasked]
      exact ⟨_, rfl⟩
  | succ n ih =>
      rw [List.replicate, follow, move?, hclient, perform_raise_masked hmasked]
      -- raising it again changes nothing
      exact ih (p := p.raised.answer .done) _ rfl hmasked

/-! ## `errno` -/

/-- Until its call answers, the thread that was interrupted waits with `errno` saved,
and it finds it again. -/
structure Interrupted (id : ThreadId) (errno : Int) (q : Process) : Prop where
  paused : q.EachPaused fun t r => t.id = id → r = .preempted errno .done
  arriving : q.OnArrival fun t r => t.id = id → r = .preempted errno .done
  running : q.Runs id → q.errno = errno

theorem not_runs_of_arriving (h : q.control = .arriving r) (id : ThreadId) : ¬ q.Runs id := by
  rintro ⟨-, reply, hreply⟩
  exact nomatch h.symm.trans hreply

/-- A signal that arrives at the interrupted thread saves `errno` as it is. -/
theorem Books.interrupted (hp : p.Books c)
    (h : p.EachPaused fun t r => t.id = c.id → r = .preempted p.errno .done) :
    Interrupted c.id p.errno (p.answerOpen .done) := by
  unfold answerOpen
  split
  · have haccept : p.SameBooks { p with signal := p.signal.accept } := sameBooks_with ..
    have hbooks := hp.congr haccept
    have hpaused := h.congr haccept
    rw [deliver, if_pos hp.isInitialised]
    cases hr : p.scheduler.ready with
    | nil =>
        have hnone : { p with signal := p.signal.accept }.scheduler.ready = [] := hr
        rw [handOver_nil hnone]
        exact ⟨h.congr (sameBooks_with ..), onArrival_of_client rfl, fun _ => rfl⟩
    | cons n rest =>
        obtain ⟨s, hs⟩ := hbooks.handsOver_of_ready rfl hr
        obtain ⟨hnext, harrival⟩ := hpaused.handsOver hbooks hs fun _ => rfl
        exact ⟨hnext, harrival, fun hruns => absurd hruns (not_runs_of_arriving hs.control _)⟩
  · exact ⟨h.congr (sameBooks_with ..), onArrival_of_client rfl, fun _ => rfl⟩

/-- What another thread does leaves the interrupted one as it is. -/
theorem Interrupted.step {id : ThreadId} {e : Int} (h : Interrupted id e p) (run : Run τ p)
    (hinit : p.isInitialised = true) (hlt : id.val < p.scheduler.nextId.val)
    (hruns : ¬ p.Runs id) (hstep : p.Step move q) (hover : q.isOver = false) :
    Interrupted id e q := by
  cases hstep with
  | call hclient call =>
      obtain ⟨-, ⟨hp, -⟩ | ⟨c, hp⟩⟩ := run.consistent.client hclient
      · exact nomatch hp.isInitialised_eq.symm.trans hinit
      · have hne : c.id ≠ id := fun heq => hruns ⟨hp.books.self_eq.trans heq, _, hclient⟩
        have heffect := hp.performs call
        obtain ⟨hpaused, harriving⟩ := heffect.paused_and_arriving h.paused hp hover
          (fun r r' _ hid => absurd hid hne)
          (fun routine arg stack _ _ hid => absurd (congrArg ThreadId.val hid) (by
            simp only [Thread.create]
            omega))
        refine ⟨hpaused, harriving, fun hruns' => ?_⟩
        obtain ⟨hself, reply, hreply⟩ := hruns'
        exact absurd ((heffect.self_of_client hp hreply).symm.trans hself) hne
  | turn hsettled =>
      obtain ⟨-, c, r, hp, hcontrol, hmasked, hgoes, hwaits⟩ := run.consistent.arrives hsettled
      have hreaped : p.reap.EachPaused fun t r => t.id = id → r = .preempted e .done := h.paused
      by_cases hid : c.id = id
      · -- its own turn: the handler returns, and perhaps the signal is there again
        obtain rfl := h.arriving c r hp.current hcontrol hid
        subst hid
        let x : Process := { p.reap with errno := e, signal := p.reap.signal.unblock }
        have hsame : p.reap.SameBooks x := sameBooks_with ..
        have heq : p.advance = x.answerOpen .done := by
          rw [advance, hcontrol]
          rfl
        rw [heq]
        exact (hp.reap.congr hsame).interrupted (hreaped.congr hsame)
      · have hproceeds := hp.advances hcontrol hmasked hgoes hwaits
        obtain ⟨hpaused, harriving⟩ := hproceeds.paused_and_arriving hreaped hp.reap hover
          fun r r' _ heq => absurd heq hid
        refine ⟨hpaused, harriving, fun hruns' => ?_⟩
        obtain ⟨hself, reply, hreply⟩ := hruns'
        exact absurd ((hproceeds.self_of_client hp.reap hreply).symm.trans hself) hid
  | listen => exact ⟨h.paused, h.arriving, h.running⟩

/-- **A thread that is preempted finds `errno` as it has left it.** -/
theorem Underway.interrupted (h : p.Underway .raise q) (run : Run τ p)
    (hinit : p.isInitialised = true) (hover : q.isOver = false) :
    q.isInitialised = true ∧ Interrupted p.self p.errno q := by
  induction h with
  | called hclient =>
      obtain ⟨-, ⟨hp, -⟩ | ⟨c, hp⟩⟩ := run.consistent.client hclient
      · exact nomatch hp.isInitialised_eq.symm.trans hinit
      · have hsame : p.SameBooks p.raised := sameBooks_with ..
        have hpaused : p.EachPaused fun t r => t.id = c.id → r = .preempted p.errno .done :=
          fun t ht s _ hid => absurd hid.symm (hp.books.placed.current_ne hp.books.current ht)
        rw [hp.books.self_eq]
        have hhost := run.host_eq (.call hclient .raise) hinit hover
        refine ⟨by rw [isInitialised, hhost]; exact hinit, ?_⟩
        exact (hp.books.congr hsame).interrupted (hpaused.congr hsame)
  | step h hruns hstep ih =>
      obtain ⟨τ', run'⟩ := h.run run
      have hover' := hstep.isOver_eq_false hover
      obtain ⟨hinit', hinterrupted⟩ := ih hover'
      have hhost := run'.host_eq hstep hinit' hover
      refine ⟨by rw [isInitialised, hhost]; exact hinit', ?_⟩
      exact hinterrupted.step run' hinit' (h.self_lt run hover') hruns hstep hover

/-! ## preemptions and yields -/

theorem signal_eq (hquiet : p.signal.arrives = false) (hopen : p.signal.masked = false) :
    p.signal = {} := by
  rcases hsignal : p.signal with ⟨masked, pending⟩
  simp_all [PreemptSignal.arrives]

theorem Run.quiet (run : Run τ p) (hclient : p.control = .client reply) :
    p.signal.arrives = false := by
  obtain ⟨-, ⟨-, hquiet⟩ | ⟨c, hp⟩⟩ := run.consistent.client hclient
  · exact hquiet
  · exact hp.quiet

/-- **A preemption is a yield, but for `errno`.**

* Where the mask is open, the process goes on after a raise as it does after a
  yield, whatever client code does then: the same is written of both, and only
  `errno` tells them apart.  The mask is open again when the interrupted thread
  goes on, and that thread finds `errno` as it has left it.
* Where the mask is shut, raising the signal any number of times makes it pending
  and changes nothing else.  The process does what it would have done anyway, up
  to the step that opens the mask for some thread; there the signal arrives once,
  and what comes of it is what comes of a yield of that thread. -/
theorem preemption_is_yield (run : Run τ p) (hclient : p.control = .client reply) :
    (p.isInitialised = true → p.signal.masked = false →
      (∀ moves, Option.Rel (fun a b => a.1 = b.1 ∧ a.2.SameButErrno b.2)
        ((p.perform .raise).follow [] moves) ((p.perform .yield).follow [] moves)) ∧
      (∀ q, p.Returns .raise .done q → q.errno = p.errno ∧ q.signal.masked = false) ∧
      ∀ q, p.Returns .yield .done q → q.signal.masked = false) ∧
    (p.signal.masked = true →
      let calm := { p with signal := { masked := true } }.answer .done
      (∀ n, ∃ τ', p.follow τ (List.replicate (n + 1) (.call .raise)) = some (τ', calm.raised)) ∧
      calm.raised.scheduler = p.scheduler ∧
      ∀ moves q, calm.Shut moves q →
        calm.raised.Shut moves q.raised ∧
        ∀ move r, q.Step move r → move ≠ .call .raise →
          (r.isOpen = false → q.raised.Step move r.raised) ∧
          ∀ told, r.control = .client told → r.signal.masked = false → r.isInitialised = true →
            q.raised.Step move (r.deliver told) ∧
              Indistinct told (r.deliver told) (r.perform .yield)) := by
  refine ⟨fun hinit hopen => ⟨?_, ?_, ?_⟩, fun hmasked => ?_⟩
  · intro moves
    have hsignal := signal_eq (run.quiet hclient) hopen
    have hagrees := (deliver_agrees hinit hsignal .done).indistinct moves
    rw [← perform_raise hinit hopen] at hagrees
    simpa only [readAs_done] using hagrees
  · intro q hreturns
    have hover := isOver_of_client hreturns.control
    have hinterrupted := (hreturns.underway.interrupted run hinit hover).2
    refine ⟨hinterrupted.running ⟨hreturns.self, _, hreturns.control⟩, ?_⟩
    have hmask := hreturns.underway.masked run rfl (maskOf?_client hreturns.control hreturns.self)
    exact hmask.trans hopen
  · intro q hreturns
    have hmask := hreturns.underway.masked run rfl (maskOf?_client hreturns.control hreturns.self)
    exact hmask.trans hopen
  · intro calm
    have hraised : p.raised.answer .done = calm.raised := by
      have hsignal : p.signal.raise = { masked := true, pending := true } := by
        rw [PreemptSignal.raise, hmasked]
      rw [raised, hsignal]
      rfl
    refine ⟨fun n => hraised ▸ follow_raises τ hclient hmasked n, rfl, fun moves q hmoves => ?_⟩
    obtain ⟨hheld, hquiet, hshut⟩ := hmoves.raised rfl rfl
    refine ⟨hheld, fun move r hstep hmove => ?_⟩
    obtain ⟨a, ha, hlate⟩ := hstep.late hquiet hshut hmove
    cases hlate with
    | held _ hclosed heq =>
        refine ⟨fun _ => heq ▸ ha, fun told hcontrol hopen _ => ?_⟩
        simp [isOpen, hcontrol, hopen] at hclosed
    | arrived hpending hcontrol hopen heq =>
        refine ⟨fun hclosed => ?_, fun told' hcontrol' _ hinit => ?_⟩
        · simp [isOpen, hcontrol, hopen] at hclosed
        · obtain rfl := Control.client.inj (hcontrol.symm.trans hcontrol')
          have hsignal : r.signal = {} := by
            rcases hr : r.signal with ⟨masked, pending⟩
            simp_all
          rw [heq, deliver_raised hinit] at ha
          exact ⟨ha, (deliver_agrees hinit hsignal _).indistinct⟩

/-- What `errno` is does tell them apart: the second thread sets it, and the initial
one finds the new number after a yield, and the old one after a preemption. -/
theorem preemption_keeps_errno :
    ¬ ∀ τ p reply, Run τ p → p.control = .client reply → p.isInitialised = true →
      p.signal.masked = false → ∀ moves,
        Option.Rel (fun a b => a.1 = b.1 ∧ a.2.SameButErrno b.2 ∧ a.2.errno = b.2.errno)
          ((p.perform .raise).follow [] moves) ((p.perform .yield).follow [] moves) := by
  intro h
  let moves : List Move := [.call (.init (.ofMicros 1000)), .call (.create ⟨0, .native⟩ 5)]
  let more : List Move := [.turn, .call (.setErrno 5), .call (.exit 0), .turn]
  obtain ⟨τ, p, hfollow⟩ : ∃ τ p, ({} : Process).follow [] moves = some (τ, p) := ⟨_, _, rfl⟩
  obtain ⟨hcontrol, hinit, hopen, ⟨a, hraise, ha⟩, b, hyield, hb⟩ :
      p.control = .client (.thread ⟨2⟩) ∧ p.isInitialised = true ∧ p.signal.masked = false ∧
        (∃ a, (p.perform .raise).follow [] more = some a ∧ a.2.errno = 0) ∧
        ∃ b, (p.perform .yield).follow [] more = some b ∧ b.2.errno = 5 := by
    obtain ⟨rfl, rfl⟩ := Prod.mk.inj (Option.some.inj hfollow)
    exact ⟨rfl, rfl, rfl, ⟨_, rfl, rfl⟩, _, rfl, rfl⟩
  have hrel := h τ p _ (Run.start.follow hfollow) hcontrol hinit hopen more
  rw [hraise, hyield] at hrel
  cases hrel with
  | some hsame => exact nomatch ha.symm.trans (hsame.2.2.trans hb)

/-- The initial thread has made another one.  It may be preempted where it is; under
a mask it is not, and the signal waits for the mask to open. -/
theorem preemption_is_yield_of_two :
    let moves : List Move := [.call (.init (.ofMicros 1000)), .call (.create ⟨0, .native⟩ 5)]
    ∃ τ p, ({} : Process).follow [] moves = some (τ, p) ∧ p.self = .initial ∧
      (∀ moves, Option.Rel (fun a b => a.1 = b.1 ∧ a.2.SameButErrno b.2)
        ((p.perform .raise).follow [] moves) ((p.perform .yield).follow [] moves)) ∧
      let calm := (p.perform .mask).answer .done
      (∃ τ', p.follow τ [.call .mask, .call .raise] = some (τ', calm.raised)) ∧
        calm.raised.Step (.call .unmask) ((calm.perform .unmask).deliver .done) := by
  intro moves
  obtain ⟨τ, p, hfollow⟩ : ∃ τ p, ({} : Process).follow [] moves = some (τ, p) := ⟨_, _, rfl⟩
  obtain ⟨hcontrol, hself, hinit, hopen, hmask, hcalm, hnext, hnextopen, hnextinit⟩ :
      p.control = .client (.thread ⟨2⟩) ∧ p.self = .initial ∧ p.isInitialised = true ∧
        p.signal.masked = false ∧
        p.follow τ [.call .mask] =
          some (p.transcribe (.call .mask) (p.perform .mask) τ, p.perform .mask) ∧
        { p.perform .mask with signal := { masked := true } } = p.perform .mask ∧
        (((p.perform .mask).answer .done).perform .unmask).control = .client .done ∧
        (((p.perform .mask).answer .done).perform .unmask).signal.masked = false ∧
        (((p.perform .mask).answer .done).perform .unmask).isInitialised = true := by
    obtain ⟨rfl, rfl⟩ := Prod.mk.inj (Option.some.inj hfollow)
    exact ⟨rfl, rfl, rfl, rfl, rfl, rfl, rfl, rfl, rfl⟩
  have run := Run.start.follow hfollow
  have hopened := (preemption_is_yield run hcontrol).1 hinit hopen
  have hheld := (preemption_is_yield (run.follow hmask) rfl).2 rfl
  rw [hcalm] at hheld
  obtain ⟨hraises, -, hmoves⟩ := hheld
  obtain ⟨τ', hraise⟩ := hraises 0
  have hstep := ((hmoves [] _ (.nil _)).2 _ _ (.call rfl .unmask) (by simp)).2
  refine ⟨τ, p, hfollow, hself, hopened.1, ⟨τ', ?_⟩, (hstep _ hnext hnextopen hnextinit).1⟩
  rw [follow, move?, hcontrol]
  exact hraise

end Process

end GreenThreads
