import GreenThreads.Proofs.Turns

/-!
# GreenThreads.Proofs.Calls

What each call does.  `Idle` describes a process in which the code of a thread
runs, and there every call has one of the effects in `CallEffect`:

* `Idle.performs` — once the scheduler is started;
* `Unstarted.performs` — before that.

A critical section neither opens the mask nor closes it (`leave_guard`), so a
signal can only arrive at the end of a call that is there to open the mask.
-/

namespace GreenThreads.Process

/-! ## calls -/

/-- Code of the thread `c` holds the processor. -/
structure Idle (p : Process) (c : Thread) : Prop where
  books : p.Books c
  active : c.active = c
  retired : p.scheduler.retired = []
  quiet : p.signal.arrives = false

/-- A critical section leaves the mask as it found it, and no signal arrives at
its end that was not due before. -/
theorem leave_guard {p q : Process} (hquiet : p.signal.arrives = false)
    (hsignal : q.signal = p.signal.block) (reply : Reply) :
    q.leave p.signal.guard reply = { q with signal := p.signal, control := .client reply } := by
  rw [leave, hsignal, PreemptSignal.restore_guard_block, answerOpen, if_neg (by simp [hquiet])]
  rfl

theorem answers_leave {p q : Process} (hquiet : p.signal.arrives = false) (hsame : p.SameBooks q)
    (hsignal : q.signal = p.signal.block) (reply : Reply) :
    p.Answers reply (q.leave p.signal.guard reply) := by
  rw [leave_guard hquiet hsignal]
  exact ⟨hsame.trans (sameBooks_with ..), rfl, hquiet⟩

theorem sameBooks_block (p : Process) : p.SameBooks p.block := sameBooks_with ..

theorem foldl_note (p : Process) (notices : List Notice) :
    notices.foldl (fun q n => q.note n) p =
      { p with journal := p.journal ++ notices.map .notice } := by
  induction notices generalizing p with
  | nil => simp
  | cons n notices ih =>
      rw [List.foldl_cons, ih]
      simp [note, tell]

/-- The calls that only look, or only concern the host, are answered at once. -/
theorem answers_of_isPlain {p : Process} {call : Call} (hquiet : p.signal.arrives = false)
    (hcall : call.isPlain) : ∃ reply, call.uneventful reply ∧ p.Answers reply (p.perform call) := by
  have hsame : p.SameBooks p.block := p.sameBooks_block
  cases call with
  | currentId => exact ⟨_, rfl, answers_leave hquiet hsame rfl _⟩
  | isInitialised => exact ⟨_, rfl, answers_answer hquiet _⟩
  | liveStacks => exact ⟨_, rfl, answers_answer hquiet _⟩
  | debug =>
      have hnoted := foldl_note p.block p.scheduler.notices
      refine ⟨.done, rfl, answers_leave hquiet ?_ ?_ _⟩
      · rw [hnoted]
        exact hsame.trans (sameBooks_with ..)
      · rw [hnoted]
        rfl
  | mask =>
      have hmasked : p.block.signal.arrives = false := by
        simp [block, PreemptSignal.block, PreemptSignal.arrives]
      exact ⟨_, rfl, sameBooks_with .., rfl, hmasked⟩
  | arm quantum =>
      cases harm : Timer.arm quantum with
      | error e =>
          have hfailed : p.perform (.arm quantum) =
              { p with errno := e.number.getD p.errno }.answer (.hostFailed e) := by
            simp only [perform, arm, harm]
          rw [hfailed]
          exact ⟨_, rfl, sameBooks_with .., rfl, hquiet⟩
      | ok timer =>
          have harmed : p.perform (.arm quantum) =
              ({ p with timer := .stopped }.note (.timerArmed quantum)).answer (.timer timer) := by
            simp only [perform, arm, harm]
          rw [harmed]
          exact ⟨_, rfl, sameBooks_with .., rfl, hquiet⟩
  | setErrno number => exact ⟨_, rfl, sameBooks_with .., rfl, hquiet⟩
  | _ => contradiction

namespace Idle

variable {p : Process} {c : Thread}

/-- A call that does no more than open the mask. -/
theorem effect_answerOpen {call : Call} (h : p.Idle c) (hcall : call.givesWay)
    (hexit : call.exitValue? c.id = none) (hq : p.SameBooks q) :
    p.CallEffect c call (q.answerOpen .done) :=
  .proceeds (.inl hexit)
    (h.books.proceeds_answerOpen (.done hcall) ((h.books.sameBooks_of_eq h.active).trans hq))

theorem init_eq (h : p.Idle c) (config : Config) :
    p.init config = p.block.leave p.signal.guard (.refused .alreadyInitialised) := by
  have hblock : p.block.isInitialised = true := h.books.isInitialised
  simp only [init, hblock, if_true]

theorem effect_init (h : p.Idle c) (config : Config) :
    p.CallEffect c (.init config) (p.init config) := by
  rw [h.init_eq]
  exact .answered rfl rfl (answers_leave h.quiet p.sameBooks_block rfl _)

/-! ### creating -/

theorem create_of_overflow (h : p.Idle c)
    (hmap : p.pool.map p.scheduler.stackSize = (.error (.overflow cause), rest))
    (routine : Routine) (arg : Word) :
    p.create routine arg = p.block.leave p.signal.guard (.overflowed cause) := by
  have hmap' : p.block.pool.map p.block.scheduler.stackSize = (.error (.overflow cause), rest) :=
    hmap
  simp only [create, h.books.isInitialised, not_true, if_false, hmap']

theorem create_of_host (h : p.Idle c)
    (hmap : p.pool.map p.scheduler.stackSize = (.error (.host e), rest)) (routine : Routine)
    (arg : Word) : p.create routine arg = p.block.die (.mapStack e) := by
  have hmap' : p.block.pool.map p.block.scheduler.stackSize = (.error (.host e), rest) := hmap
  simp only [create, h.books.isInitialised, not_true, if_false, hmap']

theorem creates_create (h : p.Idle c)
    (hmap : p.pool.map p.scheduler.stackSize = (.ok stack, rest)) (routine : Routine)
    (arg : Word) :
    p.Creates routine arg stack (p.create routine arg) ∧
      (p.create routine arg).signal = p.signal := by
  have hmap' : p.block.pool.map p.block.scheduler.stackSize = (.ok stack, rest) := hmap
  simp only [create, h.books.isInitialised, not_true, if_false, hmap']
  rw [leave_guard h.quiet rfl]
  exact ⟨⟨hmap, rfl, rfl, rfl, fun _ => lookup_keep .., rfl, h.quiet⟩, rfl⟩

/-- A thread is made, or its size overflows; where the host gives no stack, the
process cannot go on. -/
theorem create_cases (h : p.Idle c) (routine : Routine) (arg : Word) :
    (∃ stack, p.Creates routine arg stack (p.create routine arg) ∧
        (p.create routine arg).signal = p.signal) ∨
      (∃ cause, p.create routine arg = p.block.leave p.signal.guard (.overflowed cause)) ∨
      ∃ e, p.create routine arg = p.block.die (.mapStack e) := by
  obtain ⟨answer, rest, hmap⟩ : ∃ answer rest, p.pool.map p.scheduler.stackSize = (answer, rest) :=
    ⟨_, _, rfl⟩
  cases answer with
  | ok stack => exact .inl ⟨stack, h.creates_create hmap routine arg⟩
  | error failure =>
      cases failure with
      | overflow cause => exact .inr (.inl ⟨cause, h.create_of_overflow hmap routine arg⟩)
      | host e => exact .inr (.inr ⟨e, h.create_of_host hmap routine arg⟩)

theorem effect_create (h : p.Idle c) (routine : Routine) (arg : Word) :
    p.CallEffect c (.create routine arg) (p.create routine arg) := by
  obtain ⟨stack, hcreates, -⟩ | ⟨cause, hq⟩ | ⟨e, hq⟩ := h.create_cases routine arg
  · exact .creates rfl hcreates
  · rw [hq]
    exact .answered rfl rfl (answers_leave h.quiet p.sameBooks_block rfl _)
  · rw [hq]
    exact .stopped rfl rfl

/-! ### joining -/

theorem join_of_error {id : ThreadId} (h : p.Idle c)
    (hbegin : p.scheduler.beginJoin id = .error e) :
    p.join id = p.block.leave p.signal.guard (.refused e) := by
  have hbegin' : p.block.scheduler.beginJoin id = .error e := hbegin
  simp only [join, h.books.isInitialised, not_true, if_false, hbegin']

theorem answers_join {id : ThreadId} (h : p.Idle c)
    (hbegin : p.scheduler.beginJoin id = .error e) : p.Answers (.refused e) (p.join id) := by
  rw [h.join_of_error hbegin]
  exact answers_leave h.quiet p.sameBooks_block rfl _

/-- A wait that is accepted is noted down before the caller looks for the first
time. -/
theorem join_eq {id : ThreadId} (h : p.Idle c) (hbegin : p.scheduler.beginJoin id = .ok s) :
    p.join id =
      ((p.withCurrent { c with joining := id }).block.note (.joining c.id id)).awaitEnd id
        p.signal.guard := by
  have hbegin' : p.block.scheduler.beginJoin id = .ok s := hbegin
  rw [join, if_neg (by simp [h.books.isInitialised])]
  simp only [hbegin']
  rw [Scheduler.eq_setJoining_of_beginJoin hbegin, Scheduler.setJoining_eq h.books.current]
  rfl

theorem sameBooks_joining (id : ThreadId) (n : Notice) :
    (p.withCurrent { c with joining := id }).SameBooks
      ((p.withCurrent { c with joining := id }).block.note n) :=
  (sameBooks_block _).note n

theorem books_joining (h : p.Idle c) (id : ThreadId) (n : Notice) :
    ((p.withCurrent { c with joining := id }).block.note n).Books { c with joining := id } := by
  have hwaiting : (p.withCurrent { c with joining := id }).Books { c with joining := id } :=
    h.books.setCurrent rfl rfl rfl
  exact hwaiting.congr (sameBooks_joining id n)

theorem proceeds_join {id : ThreadId} (h : p.Idle c) (hbegin : p.scheduler.beginJoin id = .ok s) :
    p.Proceeds c (some (.join id)) (p.join id) := by
  obtain ⟨hne, t, ht, rfl⟩ := Scheduler.exists_of_beginJoin hbegin
  rw [h.books.currentId_eq] at hne
  have hroutine : c.routine = none := congrArg Thread.routine h.active.symm
  have hknown : t.id ∈ (p.withCurrent { c with joining := t.id }).scheduler.ids := by
    rw [ids_withCurrent (t := { c with joining := t.id }) h.books.current rfl]
    exact (Scheduler.mem_ids_iff h.books.current).mpr (.inr ⟨t, ht, rfl⟩)
  have hpaused : ∀ r, ({ c with joining := t.id } : Thread).pausedAt r = c.pausedAt r :=
    fun _ => rfl
  have hproceeds := (h.books_joining t.id (.joining c.id t.id)).proceeds_awaitEnd rfl hroutine rfl
    hknown hne p.signal.guard
  rw [h.join_eq hbegin]
  exact .of_sameBooks h.books.current hpaused (sameBooks_joining t.id _) hproceeds

theorem effect_join {id : ThreadId} (h : p.Idle c) : p.CallEffect c (.join id) (p.join id) := by
  cases hbegin : p.scheduler.beginJoin id with
  | error e => exact .answered rfl rfl (h.answers_join hbegin)
  | ok s => exact .proceeds (.inl rfl) (h.proceeds_join hbegin)

/-- Nothing stands in the way of waiting for a thread that has ended. -/
theorem beginJoin_of_zombie (h : p.Idle c) (ht : t ∈ p.scheduler.zombies) :
    p.scheduler.beginJoin t.id = .ok (p.scheduler.setJoining t.id) := by
  have hmem : t ∈ p.scheduler.ready ++ p.scheduler.zombies := List.mem_append_right _ ht
  have hne : t.id ≠ c.id := h.books.placed.ne_current h.books.current hmem
  have hjoining : t.joining ≠ c.id := by
    rw [(h.books.placed.ended t ht).joining]
    exact h.books.id_ne_nobody.symm
  simp [Scheduler.beginJoin, h.books.currentId_eq, hne, h.books.placed.find?_eq hmem, hjoining]

/-- To join a thread that has ended takes no waiting. -/
theorem control_join_of_zombie (h : p.Idle c) (ht : t ∈ p.scheduler.zombies)
    (hstatus : t.exitStatus = some status) :
    (p.join t.id).control = .client (.status status) := by
  have hroutine : c.routine = none := congrArg Thread.routine h.active.symm
  rw [h.join_eq (h.beginJoin_of_zombie ht),
    (h.books_joining t.id _).awaitEnd_of_zombie hroutine ht hstatus, leave_guard h.quiet rfl]

/-! ### ending -/

/-- A thread that is alone ends the process by its exit. -/
theorem exit_of_alone (h : p.Idle c) (hr : p.scheduler.ready = []) (v : Word) :
    ∃ told, p.exit v = { p.block with journal := p.journal ++ told }.terminate v := by
  have hinit : p.block.isInitialised = true := h.books.isInitialised
  have hid : p.block.scheduler.currentId = c.id := h.books.currentId_eq
  have hready : p.block.scheduler.ready = [] := hr
  rw [exit, if_neg (by simp [hinit]), hid]
  by_cases hinitial : c.id = .initial
  · refine ⟨[.notice .initialExiting], ?_⟩
    have hnoted : (p.block.note .initialExiting).scheduler.ready = [] := hr
    rw [if_pos hinitial, awaitOthers_of_alone hnoted]
    rfl
  · refine ⟨[], ?_⟩
    rw [if_neg hinitial, Scheduler.retire_nil hready]
    simp [block]

/-- The initial thread waits in its exit while others are ready. -/
theorem handsOver_exit (h : p.Idle c) (hinitial : c.id = .initial)
    (hr : p.scheduler.ready = n :: rest) (v : Word) :
    ∃ s, p.HandsOver (.exiting v) n s (p.exit v) := by
  have hinit : p.block.isInitialised = true := h.books.isInitialised
  have hid : p.block.scheduler.currentId = c.id := h.books.currentId_eq
  have hsame := p.sameBooks_block.note .initialExiting
  have hready : (p.block.note .initialExiting).scheduler.ready = n :: rest := hr
  obtain ⟨s, hs⟩ := (h.books.congr hsame).handsOver_awaitOthers rfl hready v
  rw [exit, if_neg (by simp [hinit]), hid, if_pos hinitial]
  exact ⟨s, hsame.handsOver hs⟩

/-- Any other thread ends by its exit while others are ready. -/
theorem retires_exit (h : p.Idle c) (hinitial : c.id ≠ .initial)
    (hr : p.scheduler.ready = n :: rest) (v : Word) : ∃ s, p.Retires v n s (p.exit v) := by
  have hinit : p.block.isInitialised = true := h.books.isInitialised
  have hid : p.block.scheduler.currentId = c.id := h.books.currentId_eq
  have hn : n.isRunnable := h.books.placed.ready (by simp [hr])
  obtain ⟨load, hload⟩ := Thread.exists_registers hn
  have hretire : p.block.scheduler.retire v = (some load, (p.scheduler.retire v).2) := by
    have hcons := Scheduler.retire_cons (v := v) h.books.placed h.books.current hr
    rw [hcons, ← hload]
    exact hcons
  obtain ⟨s, hs⟩ := (h.books.congr p.sameBooks_block).retires_of_ready hr (.exited c.id v)
  rw [exit, if_neg (by simp [hinit]), hid, if_neg hinitial, hretire]
  simp only [Thread.owner_of_registers? hload]
  exact ⟨s, p.sameBooks_block.retires hs⟩

theorem effect_exit {call : Call} (h : p.Idle c) (hexit : call.exitValue? c.id = some v) :
    p.CallEffect c call (p.exit v) := by
  cases hr : p.scheduler.ready with
  | nil =>
      obtain ⟨told, htold⟩ := h.exit_of_alone hr v
      rw [htold]
      exact .stopped rfl rfl
  | cons n rest =>
      by_cases hinitial : c.id = .initial
      · have hgoes := c.goesOn_pausedAt p.scheduler.ids (r := .exiting v)
          (by simp) (by simp) (fun _ _ => hinitial)
        obtain ⟨s, hs⟩ := h.handsOver_exit hinitial hr v
        exact .proceeds (.inr hinitial) (.paused (.exiting (hinitial ▸ hexit)) (by simp) hgoes
          ((h.books.sameBooks_of_eq h.active).handsOver hs))
      · obtain ⟨s, hs⟩ := h.retires_exit hinitial hr v
        exact .retires hexit hinitial hs

/-- A thread that cancels itself exits. -/
theorem perform_of_exitValue {call : Call} (h : p.Idle c) (hexit : call.exitValue? c.id = some v) :
    p.perform call = p.exit v := by
  cases call with
  | exit value => exact congrArg p.exit (Option.some.inj hexit)
  | cancel id =>
      by_cases hid : id = c.id
      · rw [Call.exitValue?, if_pos hid] at hexit
        rw [perform, cancel, if_neg (by simp [h.books.isInitialised]), h.books.currentId_eq,
          if_pos hid, Option.some.inj hexit]
      · rw [Call.exitValue?, if_neg hid] at hexit
        contradiction
  | _ => contradiction

theorem cancel_of_error {id : ThreadId} (h : p.Idle c) (hid : id ≠ c.id)
    (hcancel : p.scheduler.cancel id = .error e) :
    p.cancel id = p.block.leave p.signal.guard (.refused e) := by
  have hcancel' : p.block.scheduler.cancel id = .error e := hcancel
  simp only [cancel, h.books.isInitialised, not_true, if_false, h.books.currentId_eq, hid, hcancel']

theorem cancels_cancel {id : ThreadId} (h : p.Idle c) (hid : id ≠ c.id)
    (hcancel : p.scheduler.cancel id = .ok (freed, s)) :
    p.Cancels id freed (p.cancel id) ∧ (p.cancel id).signal = p.signal := by
  have hcancel' : p.block.scheduler.cancel id = .ok (freed, s) := hcancel
  simp only [cancel, h.books.isInitialised, not_true, if_false, h.books.currentId_eq, hid, hcancel']
  rw [leave_guard h.quiet rfl]
  refine ⟨⟨hcancel, rfl, rfl, rfl, fun other => ?_, rfl, h.quiet⟩, rfl⟩
  exact lookup_forget { p with saved := p.saved } id other

/-- A thread that is ready can be cancelled. -/
theorem cancels_of_ready (h : p.Idle c) (ht : t ∈ p.scheduler.ready) :
    p.Cancels t.id t.stack?.toList (p.cancel t.id) := by
  obtain ⟨front, back, hr⟩ := List.append_of_mem ht
  have hne : t.id ≠ c.id := (h.books.placed.current_ne h.books.current ht).symm
  exact (h.cancels_cancel hne (Scheduler.cancel_append h.books.placed hr)).1

theorem effect_cancel {id : ThreadId} (h : p.Idle c) :
    p.CallEffect c (.cancel id) (p.cancel id) := by
  by_cases hid : id = c.id
  · have hexit : (Call.cancel id).exitValue? c.id = some 0 := by simp [Call.exitValue?, hid]
    have hsame : p.cancel id = p.exit 0 := h.perform_of_exitValue hexit
    rw [hsame]
    exact h.effect_exit hexit
  · have hexit : (Call.cancel id).exitValue? c.id = none := by simp [Call.exitValue?, hid]
    cases hcancel : p.scheduler.cancel id with
    | error e =>
        rw [h.cancel_of_error hid hcancel]
        exact .answered hexit rfl (answers_leave h.quiet p.sameBooks_block rfl _)
    | ok result => exact .cancels rfl hid (h.cancels_cancel hid hcancel).1

/-! ### every call -/

theorem effect_yield (h : p.Idle c) : p.CallEffect c .yield p.yield := by
  cases hr : p.scheduler.ready with
  | nil =>
      have hnone : p.block.scheduler.ready = [] := hr
      rw [yield, handOver_nil hnone]
      exact .answered rfl rfl (answers_leave h.quiet p.sameBooks_block rfl _)
  | cons n rest =>
      have hgoes := c.goesOn_pausedAt p.scheduler.ids (r := .yielding p.signal.guard)
        (by simp) (by simp) (by simp)
      have hsame := (h.books.sameBooks_of_eq h.active).trans p.sameBooks_block
      obtain ⟨s, hs⟩ := (h.books.congr p.sameBooks_block).handsOver_of_ready rfl hr
      exact .proceeds (.inl rfl) (.paused .yielding (by simp) hgoes (hsame.handsOver hs))

/-- **What a call does**, whichever it is. -/
theorem performs (h : p.Idle c) (call : Call) : p.CallEffect c call (p.perform call) := by
  by_cases hplain : call.isPlain = true
  · obtain ⟨reply, hreply, hq⟩ := answers_of_isPlain h.quiet hplain
    have hexit : call.exitValue? c.id = none := by
      cases call <;> first | rfl | contradiction
    exact .answered hexit hreply hq
  · cases call with
    | init config => exact h.effect_init config
    | create routine arg => exact h.effect_create routine arg
    | join id => exact h.effect_join
    | cancel id => exact h.effect_cancel
    | yield => exact h.effect_yield
    | exit value => exact h.effect_exit rfl
    | release guard => exact h.effect_answerOpen rfl rfl (sameBooks_with ..)
    | unmask => exact h.effect_answerOpen rfl rfl (sameBooks_with ..)
    | raise => exact h.effect_answerOpen rfl rfl (sameBooks_with ..)
    | panic | abort | quit => exact .stopped rfl rfl
    | currentId | isInitialised | liveStacks | debug | mask | arm | setErrno =>
        exact absurd rfl hplain

end Idle

/-! ## before the start -/

namespace Unstarted

variable {p q : Process}

/-- Where nobody handles the signal it ends the process. -/
theorem early_answerOpen {call : Call} (h : p.Unstarted) (hcall : call.uneventful reply)
    (hq : p.SameBooks q) : p.EarlyEffect call (q.answerOpen reply) := by
  have hinit : q.isInitialised = false := by rw [isInitialised, hq.host, h.host]; rfl
  by_cases harrives : q.signal.arrives = true
  · rw [answerOpen, if_pos harrives, deliver, if_neg (by simp [hinit])]
    exact .stopped rfl hq.pool
  · rw [answerOpen, if_neg harrives]
    exact .answered hcall
      ⟨hq.trans (sameBooks_with ..), rfl, Bool.eq_false_iff.mpr harrives⟩

theorem isInitialised_eq (h : p.Unstarted) : p.isInitialised = false := by
  rw [isInitialised, h.host]
  rfl

/-! ### the call that starts the scheduler -/

theorem pool_start (h : p.Unstarted) (size : Nat) :
    p.pool.release (p.scheduler.allocateId.2.start (.hosted p.scheduler.nextId) size).1 =
      p.pool := by
  have hfreed :
      (p.scheduler.allocateId.2.start (.hosted p.scheduler.nextId) size).1 = [] := by
    rw [h.scheduler]
    rfl
  rw [hfreed, StackPool.release_nil]

theorem inits (h : p.Unstarted) (hquiet : p.signal.arrives = false) (config : Config) :
    p.Inits config (p.init config) := by
  have hinit : p.block.isInitialised = false := h.isInitialised_eq
  cases hvalid : config.hasValidQuantum with
  | false =>
      simp only [init, hinit, hvalid, if_false, if_true, not_false_eq_true, Bool.false_eq_true]
      rw [leave_guard hquiet rfl]
      exact .refused hvalid rfl
  | true =>
      simp only [init, hinit, hvalid, if_false, not_true, Bool.false_eq_true]
      cases hsize : config.stackSize with
      | error cause =>
          refine .overflowed hsize ?_
          dsimp only
          rw [leave_guard hquiet rfl]
          rfl
      | ok size =>
          cases harm : Timer.arm config.quantum with
          | error e => exact .stopped rfl (h.pool_start size)
          | ok timer =>
              -- no other thread is there yet, so a signal that is due has no effect
              dsimp only
              rw [unblock_of_alone rfl rfl]
              exact .starts hsize ⟨rfl, h.pool_start size, rfl, rfl, rfl⟩ rfl rfl

theorem early_init (h : p.Unstarted) (hquiet : p.signal.arrives = false) (config : Config) :
    p.EarlyEffect (.init config) (p.init config) := by
  cases h.inits hquiet config with
  | refused _ hq =>
      rw [hq]
      exact .answered rfl (answers_answer hquiet _)
  | overflowed _ hq => exact .overflowed rfl (by rw [hq]; exact hquiet) hq
  | starts _ hq hsignal hcontrol =>
      exact .starts rfl hq hcontrol (congrArg PreemptSignal.arrives hsignal)
  | stopped hover hpool => exact .stopped hover hpool

/-- **What a call does before the start**: nothing but the call that starts
the scheduler changes the books. -/
theorem performs (h : p.Unstarted) (hquiet : p.signal.arrives = false) (call : Call) :
    p.EarlyEffect call (p.perform call) := by
  have hinit := h.isInitialised_eq
  by_cases hplain : call.isPlain = true
  · obtain ⟨reply, hreply, hq⟩ := answers_of_isPlain hquiet hplain
    exact .answered hreply hq
  · cases call with
    | init config => exact h.early_init hquiet config
    | create routine arg =>
        rw [perform, create, if_pos (by simp [hinit])]
        exact .answered rfl (answers_answer hquiet _)
    | join id =>
        rw [perform, join, if_pos (by simp [hinit])]
        exact .answered rfl (answers_answer hquiet _)
    | cancel id =>
        rw [perform, cancel, if_pos (by simp [hinit])]
        exact .answered rfl (answers_answer hquiet _)
    | yield =>
        have hready : p.block.scheduler.ready = [] := by
          rw [block, h.scheduler]
        rw [perform, yield, handOver_nil hready]
        exact .answered rfl (answers_leave hquiet p.sameBooks_block rfl _)
    | exit value =>
        have hinit' : p.block.isInitialised = false := hinit
        rw [perform, exit, if_pos (by simp [hinit'])]
        exact .stopped rfl rfl
    | release guard => exact h.early_answerOpen rfl (sameBooks_with ..)
    | unmask => exact h.early_answerOpen rfl (sameBooks_with ..)
    | raise => exact h.early_answerOpen rfl (sameBooks_with ..)
    | panic | abort | quit => exact .stopped rfl rfl
    | currentId | isInitialised | liveStacks | debug | mask | arm | setErrno =>
        exact absurd rfl hplain

end Unstarted

end GreenThreads.Process
