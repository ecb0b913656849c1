import GreenThreads.Proofs.Moments
import GreenThreads.Proofs.Initialiser

/-!
# GreenThreads.Proofs.Identity

The scheduler's idea of who is running, and whose code runs.

Whose code runs is only known by the machine state that was loaded last, while
the scheduler keeps a descriptor of its own that is current.  The two change in
different places, and agree:

* `Run.currentId_eq_self` — the current descriptor is that of the thread whose
  code runs;
* `Run.host_eq_initialiser` — the code that the process began with is the thread
  that a call to start has returned to;
* `Run.switches` — a switch loads the machine state of the descriptor that it
  makes current, and saves that of the one that it queues.

The main statement is `bookkeeping_agrees`.
-/

namespace GreenThreads

/-! ## operations that switch -/

namespace Scheduler

variable {s s' : Scheduler}

/-- A rotation saves to the registers of the thread that it queues, and loads those
of the one that it makes current. -/
theorem exists_of_rotate (h : s.rotate = (some switch, s')) :
    ∃ c n, s.current = some c ∧ s'.current = some n ∧ c.registers? = some switch.save ∧
      n.registers? = some switch.load ∧ s'.ready.getLast? = some c := by
  unfold rotate at h
  split at h
  · exact nomatch (Prod.mk.inj h).1
  · next c hc =>
      split at h
      · exact nomatch (Prod.mk.inj h).1
      · next save hsave =>
          split at h
          · exact nomatch (Prod.mk.inj h).1
          · next n load _ hpop =>
              obtain ⟨hswitch, rfl⟩ := Prod.mk.inj h
              obtain rfl := Option.some.inj hswitch
              exact ⟨c, n, hc, rfl, hsave, registers?_of_popNext hpop, List.getLast?_concat ..⟩

/-- A thread that retires is the last of the zombies, and what is loaded are the
registers of the one that becomes current. -/
theorem exists_of_retire {load : Registers} (h : s.retire v = (some load, s')) :
    ∃ c n, s.current = some c ∧ s'.current = some n ∧ n.registers? = some load ∧
      s'.zombies.getLast? = some (c.finish v) := by
  unfold retire at h
  split at h
  · exact nomatch (Prod.mk.inj h).1
  · next c hc =>
      split at h
      · exact nomatch (Prod.mk.inj h).1
      · next n load' _ hpop =>
          obtain ⟨hload, rfl⟩ := Prod.mk.inj h
          obtain rfl := Option.some.inj hload
          exact ⟨c, n, hc, rfl, registers?_of_popNext hpop, List.getLast?_concat ..⟩

end Scheduler

/-! ## the call that has started the scheduler -/

/-- The thread that a call to start has returned to, once one has succeeded.  No
other code runs while the call is carried out. -/
def Transcript.initialiser : Transcript → Option ThreadId
  | [] => none
  | .called .. :: earlier => initialiser earlier
  | .answered thread reply :: earlier =>
    match earlier, reply with
    | .called _ (.init _) :: _, .done => some thread
    | _, _ => initialiser earlier

theorem Transcript.initialiser_answered {τ : Transcript}
    (h : ∀ who config earlier, τ = .called who (.init config) :: earlier → reply ≠ .done)
    (id : ThreadId) : initialiser (.answered id reply :: τ) = initialiser τ := by
  rw [initialiser]
  exact h

namespace Process

variable {τ earlier : Transcript} {p q : Process} {c n : Thread} {r : Resumption} {s : Saved}
  {move : Move} {id : ThreadId}

theorem initialiser_seen
    (h : ∀ who config earlier, τ = .called who (.init config) :: earlier →
      q.control ≠ .client .done) : (q.seen τ).initialiser = τ.initialiser := by
  unfold seen
  split
  · next reply hcontrol =>
      refine Transcript.initialiser_answered ?_ _
      rintro who config earlier hτ rfl
      exact h who config earlier hτ hcontrol
  · rfl

/-- A call to start is answered at once, if ever. -/
theorem Run.isSettled_init (run : Run τ p) (hclient : p.control = .client reply)
    (config : Config) : (p.perform (.init config)).isSettled = true := by
  obtain ⟨-, ⟨hp, hquiet⟩ | ⟨c, hp⟩⟩ := run.consistent.client hclient
  · have hinits : p.Inits config (p.perform (.init config)) := hp.inits hquiet config
    cases hinits with
    | refused _ hq => rw [hq]; rfl
    | overflowed _ hq => rw [hq]; rfl
    | starts _ _ _ hdone => rw [isSettled, hdone]
    | stopped hover => rw [isSettled, hover]
  · rw [perform, hp.init_eq, leave_guard hp.quiet rfl]
    rfl

/-- Only the call that ends the process by it is never answered. -/
theorem Run.isSettled_of_called_init {who : ThreadId} {config : Config} (run : Run τ p)
    (h : τ = .called who (.init config) :: earlier) : p.isSettled = true := by
  induction run with
  | start => contradiction
  | @step τ p move q run hstep ih =>
      cases hstep with
      | call hclient call =>
          rw [transcribe, seen] at h
          split at h
          · have hmoment := (List.cons.inj h).1
            contradiction
          · obtain ⟨hmoment, -⟩ := List.cons.inj h
            obtain ⟨-, rfl⟩ := Moment.called.inj hmoment
            exact run.isSettled_init hclient config
      | turn hsettled =>
          rw [transcribe, seen] at h
          split at h
          · have hmoment := (List.cons.inj h).1
            contradiction
          · have hcalled := ih h
            rw [hsettled] at hcalled
            contradiction
      | listen => exact ih h

/-- What is written of a call that starts nothing. -/
theorem initialiser_call {call : Call}
    (h : ∀ config, call = .init config → q.control ≠ .client .done) :
    (p.transcribe (.call call) q τ).initialiser = τ.initialiser := by
  rw [transcribe, initialiser_seen, Transcript.initialiser]
  intro who config earlier hτ
  obtain ⟨hmoment, -⟩ := List.cons.inj hτ
  obtain ⟨-, hinit⟩ := Moment.called.inj hmoment
  exact h config hinit

theorem Unstarted.host_eq_initialiser {call : Call} (hp : p.Unstarted)
    (hquiet : p.signal.arrives = false) (hhost : p.host = τ.initialiser)
    (hover : (p.perform call).isOver = false) :
    (p.perform call).host =
      (p.transcribe (.call call) (p.perform call) τ).initialiser := by
  by_cases hinit : ∃ config, call = .init config
  · obtain ⟨config, rfl⟩ := hinit
    have hinits : p.Inits config (p.perform (.init config)) := hp.inits hquiet config
    cases hinits with
    | refused _ hq =>
        rw [initialiser_call (by simp [hq, answer]), hq, ← hhost]
        rfl
    | overflowed _ hq => rw [initialiser_call (by simp [hq]), hq, ← hhost]
    | starts _ hq _ hdone =>
        have hself := (hp.starts hq).self_eq
        rw [transcribe, seen_client hdone, hself, hq.host]
        rfl
    | stopped hstopped => simp [isOver, hstopped] at hover
  · have hcall : ∀ config, call ≠ .init config := fun config heq => hinit ⟨config, heq⟩
    rw [initialiser_call fun config heq => absurd heq (hcall config), ← hhost]
    cases hp.performs hquiet call with
    | answered _ hq => exact hq.books.host
    | overflowed heq => exact absurd heq (hcall _)
    | starts heq => exact absurd heq (hcall _)
    | stopped hstopped => simp [isOver, hstopped] at hover

/-- **The thread on the host's stack is the one that the start has returned to.** -/
theorem Run.host_eq_initialiser (run : Run τ p) (hover : p.isOver = false) :
    p.host = τ.initialiser := by
  induction run with
  | start => rfl
  | @step τ p move q run hstep ih =>
      have hhost := ih (hstep.isOver_eq_false hover)
      cases hstep with
      | call hclient call =>
          obtain ⟨-, ⟨hp, hquiet⟩ | ⟨c, hp⟩⟩ := run.consistent.client hclient
          · exact hp.host_eq_initialiser hquiet hhost hover
          · rw [(hp.performs call).host_eq hover, initialiser_call, hhost]
            rintro config rfl
            rw [perform, hp.init_eq, leave_guard hp.quiet rfl]
            simp
      | turn hsettled =>
          have hinit : p.isInitialised = true := by
            obtain ⟨-, c, hp, -⟩ := run.consistent.turn hsettled
            exact hp.isInitialised
          rw [transcribe, initialiser_seen, run.host_eq (.turn hsettled) hinit hover, hhost]
          intro who config earlier hτ
          have hcalled := run.isSettled_of_called_init hτ
          rw [hsettled] at hcalled
          contradiction
      | listen => exact hhost

/-! ## whose code runs -/

/-- **The current descriptor is that of the thread whose code runs.** -/
theorem Run.currentId_eq_self (run : Run τ p) (hover : p.isOver = false) :
    p.scheduler.currentId = p.self := by
  obtain ⟨-, hp | ⟨c, hp⟩⟩ := run.consistent.books hover
  · rw [hp.self_eq, hp.scheduler]
    rfl
  · rw [hp.self_eq, hp.currentId_eq]

/-- What client code is told of its identity. -/
theorem Run.control_currentId (run : Run τ p) (hclient : p.control = .client reply) :
    (p.perform .currentId).control = .client (.thread p.self) := by
  have hquiet : p.signal.arrives = false := by
    obtain ⟨-, ⟨-, hquiet⟩ | ⟨c, hp⟩⟩ := run.consistent.client hclient
    · exact hquiet
    · exact hp.quiet
  rw [perform, observe, leave_guard hquiet rfl, ← run.currentId_eq_self (isOver_of_client hclient)]

theorem self_of_host (h : p.strand = .host) : p.self = p.host.getD .nobody := by
  rw [self, h]

theorem self_of_created (h : p.strand = .created id) : p.self = id := by
  rw [self, h]

/-- The code of a thread that was made is not that of the host. -/
theorem Run.mem_created_of_strand (run : Run τ p) (hclient : p.control = .client reply)
    (h : p.strand = .created id) : id ∈ τ.created := by
  obtain ⟨hl, ⟨hp, -⟩ | ⟨c, hp⟩⟩ := run.consistent.client hclient
  · exact nomatch hp.strand.symm.trans h
  · obtain rfl : c.id = id := hp.books.self_eq.symm.trans (self_of_created h)
    have hmem := hl.threads.subset (Scheduler.mem_ids_of_mem_living hp.books.mem_living)
    refine (List.mem_append.mp hmem).resolve_left ?_
    intro hhost
    have hstrand := hp.books.strand
    rw [h, strandOf, if_pos (Option.mem_toList.mp hhost)] at hstrand
    contradiction

theorem Run.currentId_eq_nobody_iff (run : Run τ p) (hclient : p.control = .client reply) :
    p.scheduler.currentId = .nobody ↔ τ.initialiser = none := by
  have hover := isOver_of_client hclient
  rw [run.currentId_eq_self hover, ← run.host_eq_initialiser hover]
  constructor
  · intro hnobody
    by_contra hhost
    exact run.self_ne_nobody (Option.isSome_iff_ne_none.mpr hhost) hover hnobody
  · intro hhost
    obtain ⟨-, ⟨hp, -⟩ | ⟨c, hp⟩⟩ := run.consistent.client hclient
    · exact hp.self_eq
    · have hinit := hp.books.isInitialised
      rw [isInitialised, hhost] at hinit
      contradiction

/-- What is not over never was. -/
theorem Later.isOver_eq_false (h : p.Later q) (hover : q.isOver = false) : p.isOver = false := by
  induction h with
  | refl => exact hover
  | tail _ hstep ih =>
      obtain ⟨move, hmove⟩ := hstep
      exact ih (hmove.isOver_eq_false hover)

theorem Run.host_eq_later (run : Run τ p) (hinit : p.isInitialised = true) (h : p.Later q)
    (hover : q.isOver = false) : q.host = p.host := by
  induction h with
  | refl => rfl
  | @tail q r hlater hstep ih =>
      obtain ⟨move, hmove⟩ := hstep
      obtain ⟨τ', run'⟩ := run.later hlater
      have hhost := ih (hmove.isOver_eq_false hover)
      have hinit' : q.isInitialised = true := by rw [isInitialised, hhost]; exact hinit
      rw [run'.host_eq hmove hinit' hover, hhost]

/-- Once the scheduler is started, the same code is always the same thread. -/
theorem Run.self_eq_later (run : Run τ p) (hinit : p.isInitialised = true) (h : p.Later q)
    (hover : q.isOver = false) (hstrand : q.strand = p.strand) : q.self = p.self := by
  rw [self, self, hstrand, run.host_eq_later hinit h hover]

/-! ## switches -/

/-- The processor passes from one thread to another.  What is loaded is the
machine state of the thread that becomes current.  The one that had the
processor is queued last and its machine state saved, or it has ended. -/
structure Switches (p q : Process) : Prop where
  loads : ∃ n s, n ∈ p.scheduler.ready ∧ q.scheduler.current = some n ∧ q.self = n.id ∧
    p.saved.lookup n.id = some s ∧ q.strand = s.strand ∧ q.signal.masked = s.masked ∧
    q.control = .arriving s.resumption
  saves : (∃ t r, q.scheduler.ready.getLast? = some t ∧ t.id = p.self ∧
      q.saved.lookup t.id = some ⟨p.strand, true, r⟩) ∨
    ∃ t, q.scheduler.zombies.getLast? = some t ∧ t.id = p.self

theorem Books.switches_of_handsOver (h : p.Books c) (hq : p.HandsOver r n s q) :
    p.Switches q := by
  obtain ⟨rest, hr, heq⟩ := h.exists_of_handsOver hq
  have hn : n ∈ p.scheduler.ready := by simp [hr]
  have hne : c.id ≠ n.id := h.placed.current_ne h.current hn
  have hself := h.self_of_loaded hq.first hq.loaded hq.strand hq.host
  constructor
  · exact ⟨n, s, hn, by rw [heq], hself, hq.loaded, hq.strand, hq.masked, hq.control⟩
  · refine .inl ⟨c, r, by rw [heq]; exact List.getLast?_concat .., h.self_eq.symm, ?_⟩
    rw [hq.saved, if_neg hne, h.currentId_eq, if_pos rfl]

theorem Books.switches_of_retires (h : p.Books c) (hq : p.Retires v n s q) : p.Switches q := by
  obtain ⟨rest, hr, heq⟩ := h.exists_of_retires hq
  have hn : n ∈ p.scheduler.ready := by simp [hr]
  have hself := h.self_of_loaded hq.first hq.loaded hq.strand hq.host
  constructor
  · exact ⟨n, s, hn, by rw [heq], hself, hq.loaded, hq.strand, hq.masked, hq.control⟩
  · exact .inr ⟨c.finish v, by rw [heq]; exact List.getLast?_concat .., h.self_eq.symm⟩

theorem Proceeds.switches {call : Option Call} (hp : p.Books c) (h : p.Proceeds c call q)
    (harriving : q.control = .arriving r) : p.Switches q := by
  cases h with
  | answered _ hq => exact nomatch hq.control.symm.trans harriving
  | @paused r' n s _ _ _ hq =>
      have hbooks : (p.withCurrent (c.pausedAt r')).Books (c.pausedAt r') :=
        hp.setCurrent rfl rfl rfl
      have hswitches := hbooks.switches_of_handsOver hq
      exact ⟨hswitches.loads, hswitches.saves⟩
  | stopped hover => exact nomatch hover.symm.trans harriving

theorem CallEffect.switches {call : Call} (hp : p.Idle c) (h : p.CallEffect c call q)
    (harriving : q.control = .arriving r) : p.Switches q := by
  cases h with
  | answered _ _ hq => exact nomatch hq.control.symm.trans harriving
  | proceeds _ hq => exact hq.switches hp.books harriving
  | creates _ hq => exact nomatch hq.control.symm.trans harriving
  | cancels _ _ hq => exact nomatch hq.control.symm.trans harriving
  | retires _ _ hq => exact hp.books.switches_of_retires hq
  | stopped hover => exact nomatch hover.symm.trans harriving

theorem EarlyEffect.control_ne_arriving {call : Call} (h : p.EarlyEffect call q) :
    q.control ≠ .arriving r := by
  intro harriving
  cases h with
  | answered _ hq => exact nomatch hq.control.symm.trans harriving
  | overflowed _ _ hq =>
      rw [hq] at harriving
      contradiction
  | starts _ _ hdone => exact nomatch hdone.symm.trans harriving
  | stopped hover => exact nomatch hover.symm.trans harriving

/-- **Every switch loads what was saved of the thread that it makes current**,
and saves what the thread is that it queues. -/
theorem Run.switches (run : Run τ p) (h : p.Step move q) (hmove : move ≠ .listen)
    (harriving : q.control = .arriving r) : p.Switches q := by
  cases h with
  | call hclient call =>
      obtain ⟨-, ⟨hp, hquiet⟩ | ⟨c, hp⟩⟩ := run.consistent.client hclient
      · exact absurd harriving (hp.performs hquiet call).control_ne_arriving
      · exact (hp.performs call).switches hp harriving
  | turn hsettled =>
      obtain ⟨-, c, hp, hq⟩ := run.consistent.turn hsettled
      have hswitches : p.reap.Switches p.advance := hq.switches hp.reap harriving
      exact ⟨hswitches.loads, hswitches.saves⟩
  | listen => exact absurd rfl hmove

/-- **Bookkeeping and execution agree**, in every run.

* Whenever client code runs, the current descriptor is that of its thread, and
  the call that asks for it says so.  The code that the process began with is the
  thread that a call to start has returned to; all other code is the thread of
  that identity, which some call to make one has returned.  It is nobody exactly
  while no call to start has succeeded.
* The call that returns an identity keeps the machine state of that code for it,
  and nobody had that identity before.
* Once the scheduler is started, the same code always has the same identity.
* Every switch loads the machine state of the thread that it makes current, and
  saves that of the thread that it queues.
* So does, of any scheduler, every rotation that succeeds, by the registers of the
  two descriptors; a thread that retires is ended and not saved. -/
theorem bookkeeping_agrees (run : Run τ p) :
    (∀ reply, p.control = .client reply →
      p.scheduler.currentId = p.self ∧
      (p.perform .currentId).control = .client (.thread p.self) ∧
      (p.strand = .host → p.self = τ.initialiser.getD .nobody) ∧
      (∀ id, p.strand = .created id → p.self = id ∧ ∃ routine arg, τ.Made id routine arg) ∧
      (p.scheduler.currentId = .nobody ↔ τ.initialiser = none)) ∧
    (∀ creator routine arg id (earlier : Transcript),
      τ.Answered creator (.create routine arg) (.thread id) earlier →
      ∃ τ' q, Run τ' q ∧ q.self = creator ∧
        earlier = .called creator (.create routine arg) :: τ' ∧ id ∉ q.scheduler.ids ∧
        (q.perform (.create routine arg)).saved.lookup id = some ⟨.created id, true, .begin⟩) ∧
    (p.isInitialised = true → ∀ q, p.Later q → q.isOver = false → q.strand = p.strand →
      q.scheduler.currentId = p.scheduler.currentId) ∧
    (∀ move q r, p.Step move q → move ≠ .listen → q.control = .arriving r → p.Switches q) ∧
    ∀ s s' : Scheduler,
      (∀ switch, s.rotate = (some switch, s') → ∃ c n, s.current = some c ∧
        s'.current = some n ∧ c.registers? = some switch.save ∧
        n.registers? = some switch.load ∧ s'.ready.getLast? = some c) ∧
      ∀ v load, s.retire v = (some load, s') → ∃ c n, s.current = some c ∧
        s'.current = some n ∧ n.registers? = some load ∧
        s'.zombies.getLast? = some (c.finish v) := by
  refine ⟨?_, ?_, ?_, ?_, ?_⟩
  · intro reply hclient
    have hover := isOver_of_client hclient
    refine ⟨run.currentId_eq_self hover, run.control_currentId hclient, ?_, ?_,
      run.currentId_eq_nobody_iff hclient⟩
    · intro hhost
      rw [← run.host_eq_initialiser hover]
      exact self_of_host hhost
    · intro id hid
      have hmade := run.mem_created_of_strand hclient hid
      exact ⟨self_of_created hid, Transcript.mem_created_iff.mp hmade⟩
  · intro creator routine arg id earlier h
    obtain ⟨τ', q, c, stack, run', -, hq, rfl, hearlier, rfl, hcreates⟩ := run.exists_creates h
    refine ⟨τ', q, run', hq.books.self_eq, hearlier, hq.books.placed.nextId_notMem, ?_⟩
    rw [hcreates.saved, if_pos rfl]
  · intro hinit q hlater hover hstrand
    obtain ⟨τ', run'⟩ := run.later hlater
    rw [run'.currentId_eq_self hover, run.currentId_eq_self (hlater.isOver_eq_false hover)]
    exact run.self_eq_later hinit hlater hover hstrand
  · intro move q r hstep hmove harriving
    exact run.switches hstep hmove harriving
  · intro s s'
    exact ⟨fun _ => Scheduler.exists_of_rotate, fun _ _ => Scheduler.exists_of_retire⟩

/-- The signal switches from the initial thread to the second one, and back. -/
theorem preempted_identities_agree :
    let moves : List Move :=
      [.call (.init (.ofMicros 1000)), .call (.create ⟨0, .native⟩ 5), .call .raise, .turn,
        .call .raise, .turn]
    ∃ τ p, ({} : Process).follow [] moves = some (τ, p) ∧ p.strand = .host ∧
      (p.perform .currentId).control = .client (.thread .initial) ∧
      p.Switches (p.perform .yield) ∧
      ∀ q, p.Later q → q.isOver = false → q.strand = .host →
        q.scheduler.currentId = .initial := by
  intro moves
  obtain ⟨τ, p, hfollow⟩ : ∃ τ p, ({} : Process).follow [] moves = some (τ, p) := ⟨_, _, rfl⟩
  obtain ⟨hcontrol, hstrand, hinit, hinitialiser, hyield⟩ :
      p.control = .client .done ∧ p.strand = .host ∧ p.isInitialised = true ∧
        τ.initialiser = some .initial ∧
        (p.perform .yield).control = .arriving (.preempted 0 .done) := by
    obtain ⟨rfl, rfl⟩ := Prod.mk.inj (Option.some.inj hfollow)
    exact ⟨rfl, rfl, rfl, rfl, rfl⟩
  have h := bookkeeping_agrees (Run.start.follow hfollow)
  obtain ⟨hcurrent, hasked, hhost, -⟩ := h.1 _ hcontrol
  have hself : p.self = .initial := by
    rw [hhost hstrand, hinitialiser]
    rfl
  rw [hself] at hasked hcurrent
  refine ⟨τ, p, hfollow, hstrand, hasked, ?_, ?_⟩
  · exact h.2.2.2.1 _ _ _ (.call hcontrol .yield) (by simp) hyield
  · intro q hlater hover hq
    exact (h.2.2.1 hinit q hlater hover (hq.trans hstrand.symm)).trans hcurrent

end Process

end GreenThreads
