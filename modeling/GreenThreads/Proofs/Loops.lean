import GreenThreads.Proofs.Endings
import GreenThreads.Proofs.Identity
import GreenThreads.Proofs.Routines

/-!
# GreenThreads.Proofs.Loops

Waiting loops always hand the processor over, and stop at once.

A thread waits by looking again and again: for the end of another thread, or, if
it is the initial one and exits, for the end of all others.  The signal is held
off meanwhile, so a round in which it found nobody to switch to would be
repeated for ever.

* `Round` — in this step a thread comes to the head of its loop;
* `AtHead.completes` — what the round then does: it switches to another thread,
  or the loop ends;
* `Run.arriving_of_parked` — the next time the thread has the processor, it is at
  the head of its loop again.

The main statement is `waiting_hands_over`.
-/

namespace GreenThreads

namespace Process

/-! ## rounds -/

/-- In a step from `p` the running thread comes to the head of its loop, with the
process in state `p'`.  If it has to go on waiting it will be resumed with
`r`. -/
inductive Round (p : Process) : Move → Resumption → Process → Prop where
  /-- It has called to join another thread, and may. -/
  | join {id : ThreadId} (hclient : p.control = .client reply)
      (hinit : p.isInitialised = true) (hbegin : p.scheduler.beginJoin id = .ok s) :
      Round p (.call (.join id)) (.joining id p.signal.guard)
        ({ p.block with scheduler := s }.note (.joining s.currentId id))
  /-- It is the initial thread, and has called to exit. -/
  | exit {call : Call} (hclient : p.control = .client reply) (hself : p.self = .initial)
      (hexit : call.exitValue? .initial = some v) :
      Round p (.call call) (.exiting v) (p.block.note .initialExiting)
  /-- It waits for another thread, and has been switched to. -/
  | joining {id : ThreadId} {guard : Guard} (h : p.control = .arriving (.joining id guard)) :
      Round p .turn (.joining id guard) p.reap
  /-- It waits for all others, and has been switched to. -/
  | exiting (h : p.control = .arriving (.exiting v)) : Round p .turn (.exiting v) p.reap
  /-- It found nobody to switch to the last time. -/
  | again (h : p.control = .waiting r) : Round p .turn r p

/-- The thread is ready, and will go on with `r`. -/
structure Parked (p : Process) (id : ThreadId) (r : Resumption) : Prop where
  ready : ∃ t ∈ p.scheduler.ready, t.id = id
  saved : ∃ s, p.saved.lookup id = some s ∧ s.resumption = r

/-- The running thread is queued last, and the first one in the queue has the
processor. -/
structure SwitchesAway (p : Process) (r : Resumption) (q : Process) : Prop where
  rotates : ∃ n switch, p.scheduler.ready.head? = some n ∧ n.id ≠ p.self ∧ q.self = n.id ∧
    p.scheduler.rotate = (some switch, q.scheduler) ∧ switch.save.owner = p.self ∧
    n.registers? = some switch.load
  parked : q.Parked p.self r
  control : ∃ r', q.control = .arriving r'

/-- All threads but the running one have ended. -/
def OthersEnded (τ : Transcript) (p : Process) : Prop :=
  ∀ id ∈ p.host.toList ++ τ.created, id ≠ p.self → id ∈ τ.ends.map Prod.fst

/-- What a round comes to that begins in `p`.  A thread that waits for one that
has not ended switches away, and otherwise its wait is over: it is cleared and
noted down, and the mask put back, which lets a signal in that is pending.  A
thread that waits for all others switches away while any is ready, and ends the
process when all have ended. -/
structure Completes (τ : Transcript) (p : Process) (r : Resumption) (q : Process) : Prop where
  joining : ∀ target guard, r = .joining target guard → target ∉ τ.ends.map Prod.fst →
    p.SwitchesAway r q
  joined : ∀ target guard status, r = .joining target guard → (target, status) ∈ τ.ends →
    q = ({ p with scheduler := p.scheduler.setJoining .nobody }.note
      (.joined p.self target status)).leave guard (.status status)
  exiting : ∀ v, r = .exiting v → p.scheduler.ready ≠ [] → p.SwitchesAway r q
  exited : ∀ v, r = .exiting v → OthersEnded τ p →
    p.Finishes v q ∧ q.control = .over (.exit v.lowByte)

/-- The process has come from `p` to `q`, and the thread has not had the processor
before. -/
inductive Meanwhile (p : Process) (id : ThreadId) : Process → Prop where
  | refl : Meanwhile p id p
  | step (h : Meanwhile p id q) (hself : q.self ≠ id) (hstep : q.Step move q') : Meanwhile p id q'

/-! ## what a round does -/

variable {τ : Transcript} {p p' q : Process} {c n : Thread} {r : Resumption} {move : Move}
  {id target : ThreadId} {guard : Guard} {call : Call} {v : Word}

/-- The current thread `c` is at the head of the loop that it goes on with as
`r`. -/
structure AtHead (p : Process) (c : Thread) (r : Resumption) : Prop where
  books : p.Books c
  masked : p.signal.masked = true
  goesOn : c.GoesOn p.scheduler.ids r

namespace AtHead

theorem switchesAway (h : p.AtHead c r) (hr : p.scheduler.ready ≠ []) (stay : Process → Process) :
    p.SwitchesAway r (p.handOver r stay) := by
  obtain ⟨n, rest, hr⟩ := List.exists_cons_of_ne_nil hr
  obtain ⟨s, hs⟩ : ∃ s, p.HandsOver r n s (p.handOver r stay) :=
    h.books.handsOver_of_ready h.masked hr
  have hn : n.isRunnable := h.books.placed.ready (by simp [hr])
  obtain ⟨save, load, hsave, hload, hswitch⟩ :=
    Switch.exists_of_between (h.books.placed.current h.books.current) hn
  have hrotate := Scheduler.rotate_cons h.books.placed h.books.current hr
  have hne : c.id ≠ n.id := h.books.placed.current_ne h.books.current (by simp [hr])
  have hself := h.books.self_of_loaded hs.first hs.loaded hs.strand hs.host
  have hscheduler := hs.scheduler
  rw [hrotate] at hscheduler
  rw [hswitch] at hrotate
  constructor
  · refine ⟨n, ⟨save, load⟩, hs.first, ?_, hself, ?_, ?_, hload⟩
    · rw [h.books.self_eq]; exact hne.symm
    · rw [hscheduler, hrotate]
    · rw [h.books.self_eq]; exact Thread.owner_of_registers? hsave
  · rw [h.books.self_eq]
    constructor
    · exact ⟨c, by simp [hscheduler], rfl⟩
    · exact ⟨_, by rw [hs.saved, if_neg hne, h.books.currentId_eq, if_pos rfl], rfl⟩
  · exact ⟨_, hs.control⟩

/-- Another thread that has not ended is ready. -/
theorem mem_ready (h : p.AtHead c (.joining target guard)) (hl : Ledger τ p)
    (htarget : target ∉ τ.ends.map Prod.fst) : ∃ t ∈ p.scheduler.ready, t.id = target := by
  obtain ⟨hknown, hne⟩ := h.goesOn.known target guard rfl
  obtain ⟨t, ht, rfl⟩ := ((Scheduler.mem_ids_iff h.books.current).mp hknown).resolve_left hne
  refine ⟨t, (List.mem_append.mp ht).resolve_right ?_, rfl⟩
  intro hzombie
  obtain ⟨status, hstatus⟩ := (h.books.placed.ended t hzombie).exists_exitStatus
  exact htarget (List.mem_map_of_mem (hl.mem_ends_iff.mpr ⟨t, hzombie, rfl, hstatus⟩))

/-- Where all others have ended nobody is ready. -/
theorem ready_eq_nil (h : p.AtHead c r) (hl : Ledger τ p) (hothers : OthersEnded τ p) :
    p.scheduler.ready = [] := by
  rw [List.eq_nil_iff_forall_not_mem]
  intro t ht
  have hliving : t ∈ p.scheduler.living := List.mem_append_right _ ht
  have hknown := hl.threads.subset (Scheduler.mem_ids_of_mem_living hliving)
  have hne : t.id ≠ p.self := by
    rw [h.books.self_eq]
    exact (h.books.placed.current_ne h.books.current ht).symm
  obtain ⟨⟨id, status⟩, hended, hid⟩ := List.mem_map.mp (hothers t.id hknown hne)
  obtain ⟨u, hu, rfl, -⟩ := hl.mem_ends_iff.mp hended
  exact h.books.placed.ne_of_mem_zombies hu hliving hid.symm

/-- **What a round does.** -/
theorem completes (h : p.AtHead c r) (hl : Ledger τ p) : Completes τ p r (p.resume r) := by
  constructor
  · rintro target guard rfl htarget
    obtain ⟨t, ht, rfl⟩ := h.mem_ready hl htarget
    rw [resume, awaitEnd, if_pos (h.books.placed.isRunning_of_ready ht)]
    exact h.switchesAway (List.ne_nil_of_mem ht) _
  · rintro target guard status rfl hended
    obtain ⟨t, ht, rfl, hstatus⟩ := hl.mem_ends_iff.mp hended
    have hroutine : c.routine = none := by
      rw [← Option.not_isSome_iff_eq_none]
      intro hsome
      have hbegin := h.goesOn.routine.mp hsome
      contradiction
    have hcleared : p.withCurrent c.active =
        { p with scheduler := p.scheduler.setJoining .nobody } := by
      rw [Scheduler.setJoining_eq h.books.current, withCurrent, Thread.active, hroutine]
    rw [resume, h.books.awaitEnd_of_zombie hroutine ht hstatus, hcleared, h.books.self_eq]
  · rintro v rfl hready
    rw [resume, awaitOthers, if_neg (by simpa using hready)]
    exact h.switchesAway hready _
  · rintro v rfl hothers
    rw [resume, awaitOthers_of_alone (h.ready_eq_nil hl hothers)]
    exact ⟨finishes_terminate (List.append_nil p.journal).symm v, rfl⟩

end AtHead

/-! ## every round of a run -/

/-- A process in a run never has a thread that waits without having switched
away. -/
theorem Run.control_ne_waiting (run : Run τ p) (r : Resumption) : p.control ≠ .waiting r := by
  intro hwaiting
  cases run.consistent with
  | early _ hcontrol => exact nomatch hwaiting.symm.trans hcontrol
  | idle _ hcontrol => exact nomatch hwaiting.symm.trans hcontrol
  | arriving _ hcontrol => exact nomatch hwaiting.symm.trans hcontrol
  | stopped hcontrol => exact nomatch hwaiting.symm.trans hcontrol

/-- The turn of a thread that has arrived begins at the head of its loop. -/
theorem Run.atHead_of_arriving (run : Run τ p) (h : p.control = .arriving r) :
    p.Step .turn (p.reap.resume r) ∧ Ledger τ p.reap ∧ ∃ c, p.reap.AtHead c r := by
  have hsettled : p.isSettled = false := by rw [isSettled, h]
  obtain ⟨hl, c, r', hp, hcontrol, hmasked, hgoes, -⟩ := run.consistent.arrives hsettled
  obtain rfl := Control.arriving.inj (hcontrol.symm.trans h)
  have hstep : p.Step .turn p.advance := .turn hsettled
  rw [advance, h] at hstep
  exact ⟨hstep, hl.reap, c, hp.reap, hmasked, hgoes⟩

/-- The initial thread says that it exits, and waits for the others. -/
theorem Idle.exit_eq (h : p.Idle c) (hinitial : c.id = .initial) (v : Word) :
    p.exit v = (p.block.note .initialExiting).awaitOthers v := by
  have hinit : p.block.isInitialised = true := h.books.isInitialised
  have hid : p.block.scheduler.currentId = c.id := h.books.currentId_eq
  rw [exit, if_neg (by simp [hinit]), hid, if_pos hinitial]

theorem Idle.atHead_join {s : Scheduler} (h : p.Idle c) (hl : Ledger τ p)
    (hbegin : p.scheduler.beginJoin id = .ok s) :
    let p' := { p.block with scheduler := s }.note (.joining s.currentId id)
    p.perform (.join id) = p'.awaitEnd id p.signal.guard ∧ Ledger τ p' ∧
      ∃ c, p'.AtHead c (.joining id p.signal.guard) := by
  intro p'
  obtain ⟨hne, t, ht, rfl⟩ := Scheduler.exists_of_beginJoin hbegin
  rw [h.books.currentId_eq] at hne
  have hp' : p' = (p.withCurrent { c with joining := t.id }).block.note (.joining c.id t.id) := by
    simp only [p', Scheduler.eq_setJoining_of_beginJoin hbegin,
      Scheduler.setJoining_eq h.books.current]
    rfl
  have hknown : t.id ∈ (p.withCurrent { c with joining := t.id }).scheduler.ids := by
    rw [ids_withCurrent (t := { c with joining := t.id }) h.books.current rfl]
    exact (Scheduler.mem_ids_iff h.books.current).mpr (.inr ⟨t, ht, rfl⟩)
  have hledger : Ledger τ (p.withCurrent { c with joining := t.id }) :=
    hl.withCurrent h.books.current rfl
  have hroutine : c.routine = none := congrArg Thread.routine h.active.symm
  rw [hp']
  refine ⟨h.join_eq hbegin, ?_, _, h.books_joining t.id _, rfl, ?_⟩
  · exact hledger.congr (sameBooks_joining t.id _)
  · exact ⟨by simp [hroutine], rfl, by simp_all [Process.note, tell, block], by simp⟩

/-- **A round begins at the head of the loop**, and the step goes on from there. -/
theorem Round.atHead (h : p.Round move r p') (run : Run τ p) :
    p.Step move (p'.resume r) ∧ Ledger τ p' ∧ ∃ c, p'.AtHead c r := by
  cases h with
  | @join reply s id hclient hinit hbegin =>
      obtain ⟨hl, ⟨hp, -⟩ | ⟨c, hp⟩⟩ := run.consistent.client hclient
      · exact nomatch hp.isInitialised_eq.symm.trans hinit
      · obtain ⟨hperform, hhead⟩ := hp.atHead_join hl hbegin
        have hstep : p.Step (.call (.join id)) (p.perform (.join id)) := .call hclient _
        rw [hperform] at hstep
        exact ⟨hstep, hhead⟩
  | @exit reply v call hclient hself hexit =>
      obtain ⟨hl, ⟨hp, -⟩ | ⟨c, hp⟩⟩ := run.consistent.client hclient
      · exact nomatch hp.self_eq.symm.trans hself
      · have hinitial : c.id = .initial := hp.books.self_eq.symm.trans hself
        have hsame := p.sameBooks_block.note .initialExiting
        have hstep : p.Step (.call call) (p.perform call) := .call hclient call
        rw [hp.perform_of_exitValue (hinitial ▸ hexit), hp.exit_eq hinitial] at hstep
        have hroutine : c.routine = none := congrArg Thread.routine hp.active.symm
        have hjoining : c.joining = .nobody := congrArg Thread.joining hp.active.symm
        refine ⟨hstep, hl.congr hsame, c, hp.books.congr hsame, rfl, ?_⟩
        exact ⟨by simp [hroutine], hjoining, by simp, fun _ _ => hinitial⟩
  | joining harriving => exact run.atHead_of_arriving harriving
  | exiting harriving => exact run.atHead_of_arriving harriving
  | again hwaiting => exact absurd hwaiting (run.control_ne_waiting _)

/-! ## the next turn -/

/-- A thread that has not had the processor goes on where it was left. -/
structure StillParked (id : ThreadId) (r : Resumption) (q : Process) : Prop where
  paused : q.EachPaused fun t r' => t.id = id → r' = r
  arriving : q.OnArrival fun t r' => t.id = id → r' = r
  notRunning : ¬ q.Runs id

/-- What another thread does leaves it where it is. -/
theorem StillParked.step (h : StillParked id r p) (run : Run τ p) (hinit : p.isInitialised = true)
    (hlt : id.val < p.scheduler.nextId.val) (hself : p.self ≠ id) (hstep : p.Step move q)
    (hover : q.isOver = false) : StillParked id r q := by
  cases hstep with
  | call hclient call =>
      obtain ⟨-, ⟨hp, -⟩ | ⟨c, hp⟩⟩ := run.consistent.client hclient
      · exact nomatch hp.isInitialised_eq.symm.trans hinit
      · have hne : c.id ≠ id := hp.books.self_eq ▸ hself
        have heffect := hp.performs call
        obtain ⟨hpaused, harriving⟩ := heffect.paused_and_arriving h.paused hp hover
          (fun r r' _ hid => absurd hid hne)
          (fun routine arg stack _ _ hid => absurd (congrArg ThreadId.val hid) (by
            simp only [Thread.create]
            omega))
        refine ⟨hpaused, harriving, ?_⟩
        rintro ⟨hself', reply, hreply⟩
        exact hne ((heffect.self_of_client hp hreply).symm.trans hself')
  | turn hsettled =>
      obtain ⟨-, c, hp, hproceeds⟩ := run.consistent.turn hsettled
      have hne : c.id ≠ id := hp.self_eq ▸ hself
      have hreaped : p.reap.EachPaused fun t r' => t.id = id → r' = r := h.paused
      obtain ⟨hpaused, harriving⟩ := hproceeds.paused_and_arriving hreaped hp.reap hover
        fun r r' _ hid => absurd hid hne
      refine ⟨hpaused, harriving, ?_⟩
      rintro ⟨hself', reply, hreply⟩
      exact hne ((hproceeds.self_of_client hp.reap hreply).symm.trans hself')
  | listen => exact ⟨h.paused, h.arriving, h.notRunning⟩

/-- A thread that is parked is one of those that are switched out. -/
theorem Parked.stillParked (h : p.Parked id r) (run : Run τ p) (hover : p.isOver = false) :
    p.isInitialised = true ∧ id.val < p.scheduler.nextId.val ∧ p.self ≠ id ∧
      StillParked id r p := by
  obtain ⟨t, ht, rfl⟩ := h.ready
  obtain ⟨s, hs, rfl⟩ := h.saved
  obtain ⟨-, hp | ⟨c, hp⟩⟩ := run.consistent.books hover
  · rw [hp.scheduler] at ht
    contradiction
  · have hne : c.id ≠ t.id := hp.placed.current_ne hp.current ht
    have hself : p.self ≠ t.id := hp.self_eq ▸ hne
    have hliving : t ∈ p.scheduler.living := List.mem_append_right _ ht
    refine ⟨hp.isInitialised, ?_, hself, ?_, ?_, fun hruns => hself hruns.1⟩
    · exact (hp.placed.bounds t.id (Scheduler.mem_ids_of_mem_living hliving)).2
    · intro u hu s' hs' hid
      rw [hid] at hs'
      obtain rfl := Option.some.inj (hs.symm.trans hs')
      rfl
    · intro u r' hu _ hid
      obtain rfl := Option.some.inj (hp.current.symm.trans hu)
      exact absurd hid hne

/-- **A thread goes on where it was left**, the next time that it has the
processor. -/
theorem Run.arriving_of_parked (run : Run τ p) (h : p.Parked id r) (hq : p.Meanwhile id q)
    (hover : q.isOver = false) (hself : q.self = id) : q.control = .arriving r := by
  have hlater : p.isOver = false ∧ (∃ τ', Run τ' q) ∧ q.isInitialised = true ∧
      id.val < q.scheduler.nextId.val ∧ StillParked id r q := by
    clear hself
    induction hq with
    | refl =>
        obtain ⟨hinit, hlt, -, hparked⟩ := h.stillParked run hover
        exact ⟨hover, ⟨τ, run⟩, hinit, hlt, hparked⟩
    | @step q move q' hq hself hstep ih =>
        obtain ⟨hbefore, ⟨τ', run'⟩, hinit, hlt, hparked⟩ := ih (hstep.isOver_eq_false hover)
        have hhost := run'.host_eq hstep hinit hover
        refine ⟨hbefore, ⟨_, run'.step hstep⟩, by rw [isInitialised, hhost]; exact hinit, ?_, ?_⟩
        · exact Nat.lt_of_lt_of_le hlt (run'.nextId_le hstep hover)
        · exact hparked.step run' hinit hlt hself hstep hover
  obtain ⟨hbefore, ⟨τ', run'⟩, -, -, hparked⟩ := hlater
  cases run'.consistent with
  | early _ hcontrol => exact absurd ⟨hself, _, hcontrol⟩ hparked.notRunning
  | idle _ hcontrol => exact absurd ⟨hself, _, hcontrol⟩ hparked.notRunning
  | arriving hp hcontrol =>
      obtain rfl := hparked.arriving _ _ hp.current hcontrol (hp.self_eq.symm.trans hself)
      exact hcontrol
  | stopped hcontrol => simp [isOver, hcontrol] at hover

/-! ## no round in vain -/

/-- To join a thread that has ended leaves the books as they are. -/
theorem Idle.scheduler_join_of_zombie (h : p.Idle c) (ht : t ∈ p.scheduler.zombies)
    (hstatus : t.exitStatus = some status) : (p.join t.id).scheduler = p.scheduler := by
  have hroutine : c.routine = none := congrArg Thread.routine h.active.symm
  have hcleared : ({ c with joining := t.id } : Thread).active = c := h.active
  have hsame : (p.withCurrent c).scheduler = p.scheduler := by rw [h.books.withCurrent_eq]
  rw [h.join_eq (h.beginJoin_of_zombie ht),
    (h.books_joining t.id _).awaitEnd_of_zombie hroutine ht hstatus, leave_guard h.quiet rfl,
    hcleared]
  exact hsame

/-- **Waiting loops always hand the processor over, and stop at once**, in every
run.

* Whenever a thread comes to the head of a waiting loop, the step goes on from
  there, and what comes of the round is as `Completes` says: a thread that waits
  for one that has not ended, or for all others while any is ready, switches to
  another one; otherwise its wait is over.
* To join a thread that has ended is answered at once, without a switch.
* The next time that a waiting thread has the processor it is at the head of its
  loop again, and its turn is such a round.  So the wait is over in the first turn
  that it has after what it waits for has happened.
* No thread ever goes on waiting without having switched away. -/
theorem waiting_hands_over (run : Run τ p) :
    (∀ move r p', p.Round move r p' →
      p.Step move (p'.resume r) ∧ Completes τ p' r (p'.resume r)) ∧
    (∀ reply target status, p.control = .client reply → (target, status) ∈ τ.ends →
      (p.perform (.join target)).control = .client (.status status) ∧
        (p.perform (.join target)).scheduler = p.scheduler) ∧
    (∀ id r q, p.Parked id r → p.Meanwhile id q → q.isOver = false → q.self = id →
      q.control = .arriving r ∧ q.Step .turn q.advance ∧
        ∀ τ', Run τ' q → Completes τ' q.reap r q.advance) ∧
    ∀ r, p.control ≠ .waiting r := by
  refine ⟨?_, ?_, ?_, run.control_ne_waiting⟩
  · intro move r p' hround
    obtain ⟨hstep, hl, c, hhead⟩ := hround.atHead run
    exact ⟨hstep, hhead.completes hl⟩
  · intro reply target status hclient hended
    obtain ⟨hl, ⟨hp, -⟩ | ⟨c, hp⟩⟩ := run.consistent.client hclient
    · rw [hl.ends, hp.scheduler] at hended
      contradiction
    · obtain ⟨t, ht, rfl, hstatus⟩ := hl.mem_ends_iff.mp hended
      exact ⟨hp.control_join_of_zombie ht hstatus, hp.scheduler_join_of_zombie ht hstatus⟩
  · intro id r q hparked hmeanwhile hover hself
    have harriving := run.arriving_of_parked hparked hmeanwhile hover hself
    refine ⟨harriving, .turn (by rw [isSettled, harriving]), ?_⟩
    intro τ' run'
    obtain ⟨-, hl, c, hhead⟩ := run'.atHead_of_arriving harriving
    rw [advance, harriving]
    exact hhead.completes hl

/-- The initial thread waits for the second one, which exits.  The third one begins
and yields, and the wait is over. -/
theorem join_waits_no_longer :
    let moves : List Move :=
      [.call (.init (.ofMicros 1000)), .call (.create ⟨0, .native⟩ 5),
        .call (.create ⟨0, .foreign⟩ 6)]
    let r : Resumption := .joining ⟨2⟩ ⟨false⟩
    ∃ τ p τ' q τ'' q', ({} : Process).follow [] moves = some (τ, p) ∧
      (∃ p', p.Round (.call (.join ⟨2⟩)) r p' ∧ p'.SwitchesAway r (p'.resume r)) ∧
      p.follow τ [.call (.join ⟨2⟩), .turn, .call (.exit 7)] = some (τ', q) ∧
      q.Parked .initial r ∧ q.follow τ' [.turn, .call .yield] = some (τ'', q') ∧
      q'.control = .arriving r ∧
      q'.advance =
        ({ q'.reap with scheduler := q'.reap.scheduler.setJoining .nobody }.note
          (.joined .initial ⟨2⟩ (.returned 7))).leave ⟨false⟩ (.status (.returned 7)) := by
  intro moves r
  obtain ⟨τ, p, hfollow⟩ : ∃ τ p, ({} : Process).follow [] moves = some (τ, p) := ⟨_, _, rfl⟩
  have run := Run.start.follow hfollow
  obtain ⟨hclient, hinit, hends, ⟨s, hbegin⟩, hguard, τ', q, hfollow'⟩ :
      p.control = .client (.thread ⟨3⟩) ∧ p.isInitialised = true ∧ τ.ends = [] ∧
        (∃ s, p.scheduler.beginJoin ⟨2⟩ = .ok s) ∧ p.signal.guard = ⟨false⟩ ∧
        ∃ τ' q, p.follow τ [.call (.join ⟨2⟩), .turn, .call (.exit 7)] = some (τ', q) := by
    obtain ⟨rfl, rfl⟩ := Prod.mk.inj (Option.some.inj hfollow)
    exact ⟨rfl, rfl, rfl, ⟨_, rfl⟩, rfl, _, _, rfl⟩
  have run' := run.follow hfollow'
  have hround := Round.join hclient hinit hbegin
  rw [hguard] at hround
  have hcompletes := ((waiting_hands_over run).1 _ _ _ hround).2
  have haway := hcompletes.joining ⟨2⟩ ⟨false⟩ rfl (by simp [hends])
  obtain ⟨hparked, hmeanwhile, τ'', hfollow'', hover, hself, hended⟩ :
      q.Parked .initial r ∧ q.Meanwhile .initial (q.advance.perform .yield) ∧
        ∃ τ'', q.follow τ' [.turn, .call .yield] = some (τ'', q.advance.perform .yield) ∧
          (q.advance.perform .yield).isOver = false ∧
          (q.advance.perform .yield).self = .initial ∧ (⟨2⟩, .returned 7) ∈ τ''.ends := by
    clear hround hcompletes haway
    obtain ⟨rfl, rfl⟩ := Prod.mk.inj (Option.some.inj hfollow)
    obtain ⟨rfl, rfl⟩ := Prod.mk.inj (Option.some.inj hfollow')
    refine ⟨⟨⟨_, List.mem_cons_self, rfl⟩, _, rfl, rfl⟩, ?_, _, rfl, rfl, rfl, by decide⟩
    exact .step (.step .refl (by decide) (.turn rfl)) (by decide) (.call rfl .yield)
  obtain ⟨harriving, -, hturn⟩ :=
    (waiting_hands_over run').2.2.1 _ _ _ hparked hmeanwhile hover hself
  have hjoined := (hturn τ'' (run'.follow hfollow'')).joined ⟨2⟩ ⟨false⟩ _ rfl hended
  have hself' : (q.advance.perform .yield).reap.self = .initial := hself
  rw [hself'] at hjoined
  exact ⟨τ, p, τ', q, τ'', _, hfollow, ⟨_, hround, haway⟩, hfollow', hparked, hfollow'',
    harriving, hjoined⟩

end Process

end GreenThreads
