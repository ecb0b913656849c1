import GreenThreads.Proofs.Endings

/-!
# GreenThreads.Proofs.Initialiser

Who the thread is that starts the scheduler.

It is given the first identity that is left.  A call to start that is refused
uses none up, but one that overflows does: the identity is given out before the
stack size is worked out.  So the thread that starts is the initial one exactly
when no call before has overflowed (`Run.identity`), and only then does its exit
wait for the other threads.  The main statement is `initialiser_identity`.
-/

namespace GreenThreads

/-- Whether code that is no thread yet has seen its call to start overflow. -/
def Moment.isOverflow : Moment → Bool
  | .answered thread (.overflowed _) => thread = .nobody
  | _ => false

/-- How many calls to start have overflowed. -/
def Transcript.overflows (τ : Transcript) : Nat := τ.countP Moment.isOverflow

namespace Process

variable {τ : Transcript} {p q : Process} {c : Thread} {move : Move} {call : Call} {v : Word}

/-! ## what is written of it -/

/-- Only a call to start overflows before the start. -/
theorem Unstarted.control_ne_overflowed (h : p.Unstarted) (hcall : ∀ config, call ≠ .init config)
    (cause : Overflow) : (p.perform call).control ≠ .client (.overflowed cause) := by
  intro hoverflowed
  have hadmits := admits_perform call hoverflowed
  cases call with
  | init config => exact hcall config rfl
  | create routine arg =>
      rw [perform, create, if_pos (by simp [h.isInitialised_eq])] at hoverflowed
      have hreply := Control.client.inj hoverflowed
      contradiction
  | _ => contradiction

theorem overflows_called (thread : ThreadId) (call : Call) (τ : Transcript) :
    Transcript.overflows (.called thread call :: τ) = τ.overflows := by
  simp [Transcript.overflows, Moment.isOverflow]

theorem overflows_answered (h : ∀ cause, reply = .overflowed cause → thread ≠ .nobody) :
    Transcript.overflows (.answered thread reply :: τ) = τ.overflows := by
  have hfalse : Moment.isOverflow (.answered thread reply) = false := by
    cases reply with
    | overflowed cause => simpa [Moment.isOverflow] using h cause rfl
    | _ => rfl
  simp [Transcript.overflows, hfalse]

theorem overflows_overflowed (cause : Overflow) (τ : Transcript) :
    Transcript.overflows (.answered .nobody (.overflowed cause) :: τ) = τ.overflows + 1 := by
  simp [Transcript.overflows, Moment.isOverflow]

/-- What a thread sees is no call to start that overflows. -/
theorem overflows_seen (h : ∀ cause, q.control = .client (.overflowed cause) → q.self ≠ .nobody) :
    (q.seen τ).overflows = τ.overflows := by
  unfold seen
  split
  · next reply hcontrol =>
      exact overflows_answered fun cause hreply => h cause (hreply ▸ hcontrol)
  · rfl

theorem overflows_transcribe
    (h : ∀ cause, q.control = .client (.overflowed cause) → q.self ≠ .nobody) :
    (p.transcribe move q τ).overflows = τ.overflows := by
  cases move with
  | call call => rw [transcribe, overflows_seen h, overflows_called]
  | turn => exact overflows_seen h
  | listen => rfl

/-- Once the scheduler is started the code of some thread runs. -/
theorem Run.self_ne_nobody (run : Run τ p) (hinit : p.isInitialised = true)
    (hover : p.isOver = false) : p.self ≠ .nobody := by
  obtain ⟨-, hp | ⟨c, hp⟩⟩ := run.consistent.books hover
  · simp [hp.isInitialised_eq] at hinit
  · rw [hp.self_eq]
    exact hp.id_ne_nobody

/-! ## the identity of the thread that starts -/

/-- The identity of the thread that has started the scheduler, or of the one
that would. -/
def firstId (p : Process) : ThreadId := p.host.getD p.scheduler.nextId

theorem Unstarted.firstId_eq (h : p.Unstarted) : p.firstId = p.scheduler.nextId := by
  rw [firstId, h.host]
  rfl

theorem Unstarted.identity_init (h : p.Unstarted) (hquiet : p.signal.arrives = false)
    (hfirst : p.firstId = ⟨τ.overflows + 1⟩) (config : Config)
    (hover : (p.init config).isOver = false) :
    (p.init config).firstId =
      ⟨Transcript.overflows ((p.init config).seen (.called p.self (.init config) :: τ)) + 1⟩ := by
  rw [h.firstId_eq] at hfirst
  cases h.inits hquiet config with
  | refused _ hq =>
      have hseen : ∀ cause, (p.init config).control = .client (.overflowed cause) →
          (p.init config).self ≠ .nobody := by
        intro cause hcontrol
        rw [hq] at hcontrol
        exact nomatch Control.client.inj hcontrol
      rw [overflows_seen hseen, overflows_called, hq, ← hfirst]
      exact h.firstId_eq
  | @overflowed cause _ hq =>
      have hused := h.allocateId (.client (.overflowed cause))
      rw [hq, seen_client rfl, hused.self_eq, overflows_overflowed, overflows_called,
        hused.firstId_eq]
      exact congrArg ThreadId.next hfirst
  | starts _ hq _ hcontrol =>
      rw [seen_client hcontrol, overflows_answered (by simp), overflows_called, firstId, hq.host]
      exact hfirst
  | stopped hstopped => simp [isOver, hstopped] at hover

theorem Unstarted.identity_perform (h : p.Unstarted) (hquiet : p.signal.arrives = false)
    (hfirst : p.firstId = ⟨τ.overflows + 1⟩) (call : Call)
    (hover : (p.perform call).isOver = false) :
    (p.perform call).firstId =
      ⟨Transcript.overflows ((p.perform call).seen (.called p.self call :: τ)) + 1⟩ := by
  by_cases hinit : ∃ config, call = .init config
  · obtain ⟨config, rfl⟩ := hinit
    exact h.identity_init hquiet hfirst config hover
  · have hcall : ∀ config, call ≠ .init config := fun config heq => hinit ⟨config, heq⟩
    have hseen : ∀ cause, (p.perform call).control = .client (.overflowed cause) →
        (p.perform call).self ≠ .nobody := fun cause hcontrol =>
      absurd hcontrol (h.control_ne_overflowed hcall cause)
    rw [overflows_seen hseen, overflows_called, ← hfirst]
    cases h.performs hquiet call with
    | answered _ hq => rw [firstId, hq.books.host, hq.books.scheduler, firstId]
    | overflowed heq => exact absurd heq (hcall _)
    | starts heq => exact absurd heq (hcall _)
    | stopped hstopped => simp [isOver, hstopped] at hover

/-- **Each call to start that overflows uses an identity up**, and nothing else
does before the start. -/
theorem Run.identity (run : Run τ p) (hover : p.isOver = false) :
    p.firstId = ⟨τ.overflows + 1⟩ := by
  induction run with
  | start => rfl
  | @step τ p move q run hstep ih =>
      have hfirst := ih (hstep.isOver_eq_false hover)
      cases hinit : p.isInitialised with
      | true =>
          -- the thread on the host's stack stays who it is
          have hhost := run.host_eq hstep hinit hover
          have hinit' : q.isInitialised = true := by rw [isInitialised, hhost]; exact hinit
          have hself := (run.step hstep).self_ne_nobody hinit' hover
          obtain ⟨id, hid⟩ := Option.isSome_iff_exists.mp hinit
          rw [overflows_transcribe fun _ _ => hself, ← hfirst, firstId, firstId, hhost, hid]
          rfl
      | false =>
          cases hstep with
          | call hclient call =>
              obtain ⟨-, ⟨hp, hquiet⟩ | ⟨c, hp⟩⟩ := run.consistent.client hclient
              · exact hp.identity_perform hquiet hfirst call hover
              · simp [hp.books.isInitialised] at hinit
          | turn hsettled =>
              obtain ⟨-, c, hp, -⟩ := run.consistent.turn hsettled
              simp [hp.isInitialised] at hinit
          | listen => exact hfirst

/-! ## its exit -/

/-- Whether the exit of the thread that has started waits for the others depends
on its identity. -/
theorem Idle.exit_of_not_alone (hp : p.Idle c) (hexit : call.exitValue? c.id = some v)
    (hr : p.scheduler.ready ≠ []) :
    if c.id = .initial then c ∈ (p.perform call).scheduler.ready
    else c.finish v ∈ (p.perform call).scheduler.zombies := by
  obtain ⟨n, rest, hready⟩ := List.exists_cons_of_ne_nil hr
  rw [hp.perform_of_exitValue hexit]
  split
  · next hinitial =>
      obtain ⟨s, hs⟩ := hp.handsOver_exit hinitial hready v
      obtain ⟨rest', -, heq⟩ := hp.books.exists_of_handsOver hs
      simp [heq]
  · next hinitial =>
      obtain ⟨s, hs⟩ := hp.retires_exit hinitial hready v
      obtain ⟨rest', -, heq⟩ := hp.books.exists_of_retires hs
      simp [heq]

/-- What a call to start comes to, with the identity that is left. -/
theorem Run.init_cases {config : Config} (run : Run τ p) (hclient : p.control = .client reply)
    (hinit : p.isInitialised = false) :
    ((p.perform (.init config)).control = .client .done →
      (p.perform (.init config)).self = ⟨τ.overflows + 1⟩) ∧
    (∀ e, (p.perform (.init config)).control = .client (.refused e) →
      (p.perform (.init config)).scheduler.nextId = p.scheduler.nextId) ∧
    ∀ cause, (p.perform (.init config)).control = .client (.overflowed cause) →
      (p.perform (.init config)).isInitialised = false ∧
      (p.perform (.init config)).scheduler.nextId = p.scheduler.nextId.next := by
  obtain ⟨-, ⟨hp, hquiet⟩ | ⟨c, hp⟩⟩ := run.consistent.client hclient
  · have hnext := run.identity (isOver_of_client hclient)
    rw [hp.firstId_eq] at hnext
    have hinits : p.Inits config (p.perform (.init config)) := hp.inits hquiet config
    cases hinits with
    | refused _ hq => simp [hq, answer]
    | overflowed _ hq => simp [hq, isInitialised, hp.host, Scheduler.allocateId]
    | starts _ hq _ hdone =>
        have hself : (p.perform (.init config)).self = ⟨τ.overflows + 1⟩ :=
          (hp.starts hq).self_eq.trans hnext
        simp [hdone, hself]
    | stopped hstopped => simp [hstopped]
  · simp [hp.books.isInitialised] at hinit

/-- **Who the thread is that starts the scheduler**, in every run.

* It is the thread after all those that the calls before would have been that
  overflowed: they use an identity up, and nothing else changes.  Calls that are
  refused do not.
* So it is the initial thread exactly when no call has overflowed.
* Its exit ends the process if it is alone.  If not, it waits for the others
  only if it is the initial thread; otherwise it is done, like any other thread,
  and the process goes on without it. -/
theorem initialiser_identity (run : Run τ p) :
    (∀ reply config, p.control = .client reply → p.isInitialised = false →
      ((p.perform (.init config)).control = .client .done →
        (p.perform (.init config)).self = ⟨τ.overflows + 1⟩) ∧
      (∀ e, (p.perform (.init config)).control = .client (.refused e) →
        (p.perform (.init config)).scheduler.nextId = p.scheduler.nextId) ∧
      ∀ cause, (p.perform (.init config)).control = .client (.overflowed cause) →
        (p.perform (.init config)).isInitialised = false ∧
        (p.perform (.init config)).scheduler.nextId = p.scheduler.nextId.next) ∧
    (∀ id, p.isOver = false → p.host = some id → (id = .initial ↔ τ.overflows = 0)) ∧
    ∀ reply call v, p.control = .client reply → p.host = some p.self →
      call.exitValue? p.self = some v →
      (p.scheduler.ready = [] → p.Finishes v (p.perform call)) ∧
      (p.scheduler.ready ≠ [] → ∃ c, p.scheduler.current = some c ∧ c.id = p.self ∧
        if τ.overflows = 0 then c ∈ (p.perform call).scheduler.ready
        else c.finish v ∈ (p.perform call).scheduler.zombies) := by
  have hinitial : ∀ id, p.isOver = false → p.host = some id →
      (id = .initial ↔ τ.overflows = 0) := by
    intro id hover hid
    have hfirst := run.identity hover
    rw [firstId, hid, Option.getD_some] at hfirst
    simp [hfirst, ThreadId.initial]
  refine ⟨?_, hinitial, ?_⟩
  · intro reply config hclient hinit
    exact run.init_cases hclient hinit
  · intro reply call v hclient hself hexit
    obtain ⟨-, ⟨hp, -⟩ | ⟨c, hp⟩⟩ := run.consistent.client hclient
    · rw [hp.host] at hself
      contradiction
    · have hid := hp.books.self_eq
      refine ⟨hp.finishes (hid ▸ hexit), ?_⟩
      intro hr
      have hexits := hp.exit_of_not_alone (hid ▸ hexit) hr
      rw [← hid] at hexits
      refine ⟨c, hp.books.current, hid.symm, ?_⟩
      simpa only [hinitial p.self (isOver_of_client hclient) hself] using hexits

/-- After a start that has overflowed the thread that starts is the second one.
Its exit does not wait for the thread that it has made. -/
theorem exit_after_overflow :
    let moves : List Move :=
      [.call (.init ((Config.ofMicros 1000).withStackSize 18446744073709551615)),
        .call (.init (.ofMicros 1000)), .call (.create ⟨0, .native⟩ 5)]
    ∃ τ p c, ({} : Process).follow [] moves = some (τ, p) ∧ p.host = some ⟨2⟩ ∧
      p.scheduler.current = some c ∧ c.id = ⟨2⟩ ∧
      c.finish 7 ∈ (p.perform (.exit 7)).scheduler.zombies := by
  intro moves
  obtain ⟨τ, p, hfollow⟩ : ∃ τ p, ({} : Process).follow [] moves = some (τ, p) := ⟨_, _, rfl⟩
  have run := Run.start.follow hfollow
  obtain ⟨hcontrol, hself, hhost, hoverflows, hready⟩ :
      p.control = .client (.thread ⟨3⟩) ∧ p.self = ⟨2⟩ ∧ p.host = some ⟨2⟩ ∧ τ.overflows = 1 ∧
        p.scheduler.ready ≠ [] := by
    obtain ⟨rfl, rfl⟩ := Prod.mk.inj (Option.some.inj hfollow)
    exact ⟨rfl, rfl, rfl, rfl, by decide⟩
  obtain ⟨c, hcurrent, hid, hexits⟩ :=
    ((initialiser_identity run).2.2 _ (.exit 7) 7 hcontrol (hself ▸ hhost) rfl).2 hready
  rw [hoverflows] at hexits
  exact ⟨τ, p, c, hfollow, hhost, hcurrent, hid.trans hself, hexits⟩

/-- Whoever starts the scheduler first need not be the initial thread. -/
theorem initialiser_not_initial :
    ¬ ∀ (attempts : List Config) (config : Config),
      let p := attempts.foldl (fun p attempt => p.perform (.init attempt)) ({} : Process)
      p.isInitialised = false → (p.perform (.init config)).control = .client .done →
        (p.perform (.init config)).self = .initial := by
  intro h
  have hself := h [(Config.ofMicros 1000).withStackSize 18446744073709551615] (.ofMicros 1000)
    (by decide) (by decide)
  contradiction

end Process

end GreenThreads
