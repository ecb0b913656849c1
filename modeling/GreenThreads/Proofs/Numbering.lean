import GreenThreads.Process.Foreign
import GreenThreads.Proofs.Identity
import GreenThreads.Proofs.Routines

/-!
# GreenThreads.Proofs.Numbering

Identities are given out without gap or reuse.

```
m        the thread that a call to start has returned to
m + 1    the first one made
m + k    the k-th one made
```

A call that makes a thread gives out the next identity, and once the scheduler
is started no other step touches it:

* `CallEffect.numbers`, `Proceeds.created_seen` — one step;
* `Run.numbered` — every run.

A call that makes none has changed nothing (`Run.create_cases`).  The main
statement is `identities_are_consecutive`.
-/

namespace GreenThreads

/-- The identities given out after `m`, in their order. -/
def ThreadId.following (m : ThreadId) (count : Nat) : List ThreadId :=
  (List.range' (m.val + 1) count).map ThreadId.mk

namespace ThreadId

theorem following_succ (m : ThreadId) (count : Nat) :
    m.following (count + 1) = m.following count ++ [⟨m.val + count + 1⟩] := by
  simp [following, List.range'_concat, Nat.add_right_comm]

theorem getElem?_following {m : ThreadId} {k count : Nat} (h : k < count) :
    (m.following count)[k]? = some ⟨m.val + (k + 1)⟩ := by
  simp [following, h]
  omega

end ThreadId

/-! ## what a step writes of threads that are made -/

/-- What was made stays so. -/
theorem Transcript.created_suffix {τ τ' : Transcript} (h : τ' <:+ τ) :
    created τ' <:+ created τ := by
  induction τ with
  | nil =>
      obtain rfl := List.suffix_nil.mp h
      exact List.suffix_refl _
  | cons m τ ih =>
      cases List.suffix_cons_iff.mp h with
      | inl heq =>
          subst heq
          exact List.suffix_refl _
      | inr hold =>
          apply (ih hold).trans
          cases m with
          | called thread call => simp only [created]; grind
          | answered thread reply => simp only [created]; grind

namespace Process

variable {τ : Transcript} {p q : Process} {c : Thread} {m : ThreadId} {move : Move}

/-- A thread that goes on makes none. -/
theorem Proceeds.created_seen {call : Option Call} (hp : p.Books c) (h : p.Proceeds c call q)
    (hcall : τ.outstanding c.id = call) : (q.seen τ).created = τ.created := by
  have hself : ∀ reply, q.control = .client reply → q.self = c.id :=
    fun _ => h.self_of_client hp
  cases h with
  | answered hdue hq =>
      rw [seen_client hq.control, hself _ hq.control]
      apply Transcript.created_answered
      intro made hmade
      obtain rfl := hcall.symm.trans hmade
      exact hdue.changes_eq_false
  | paused _ _ _ hq => rw [seen_arriving hq.control]
  | stopped hstopped _ => rw [seen, hstopped]

/-- A call gives out the next identity to a thread that it makes, or none. -/
theorem CallEffect.numbers {call : Call} (hp : p.Idle c) (h : p.CallEffect c call q)
    (hover : q.isOver = false) (τ : Transcript) :
    (q.scheduler.nextId = p.scheduler.nextId ∧
        (q.seen (.called c.id call :: τ)).created = τ.created) ∨
      (q.scheduler.nextId = p.scheduler.nextId.next ∧
        (q.seen (.called c.id call :: τ)).created = p.scheduler.nextId :: τ.created) := by
  have hcall : Transcript.outstanding c.id (.called c.id call :: τ) = some call :=
    Transcript.outstanding_called_self ..
  have hself : ∀ reply, q.control = .client reply → q.self = c.id :=
    fun _ => h.self_of_client hp
  cases h with
  | answered hexit hplain hq =>
      refine .inl ⟨by rw [hq.books.scheduler], ?_⟩
      rw [seen_client hq.control, hself _ hq.control, Transcript.created_answered]
      · rfl
      · intro made hmade
        obtain rfl := Option.some.inj (hcall.symm.trans hmade)
        exact Call.changes_of_uneventful hplain
  | proceeds _ hq =>
      exact .inl ⟨hq.nextId_eq hp.books hover, hq.created_seen hp.books hcall⟩
  | creates hmake hq =>
      refine .inr ⟨by rw [hq.scheduler]; rfl, ?_⟩
      subst hmake
      rw [seen_client hq.control, hself _ hq.control, Transcript.created_answered_create hcall]
      rfl
  | cancels hmake _ hq =>
      obtain ⟨_, _, _, -, -, -, heq⟩ := Scheduler.exists_of_cancel hp.books.placed hq.scheduler
      refine .inl ⟨by rw [heq], ?_⟩
      subst hmake
      rw [seen_client hq.control, hself _ hq.control]
      simp only [Transcript.created, hcall]
  | retires _ _ hq =>
      obtain ⟨rest, -, heq⟩ := hp.books.exists_of_retires hq
      refine .inl ⟨by rw [heq], ?_⟩
      rw [seen_arriving hq.control]
      rfl
  | stopped hstopped => simp [isOver, hstopped] at hover

/-! ## every run -/

/-- The threads that were made follow `m` in number, and so will the next one. -/
structure Numbered (m : ThreadId) (τ : Transcript) (p : Process) : Prop where
  created : τ.created.reverse = m.following τ.created.length
  next : p.isOver = false → p.scheduler.nextId = ⟨m.val + τ.created.length + 1⟩

/-- Nothing is made. -/
theorem Numbered.congr (h : Numbered m τ p) (hover : p.isOver = false)
    (hnext : q.scheduler.nextId = p.scheduler.nextId) (hcreated : τ'.created = τ.created) :
    Numbered m τ' q := by
  constructor
  · rw [hcreated]
    exact h.created
  · intro _
    rw [hnext, hcreated]
    exact h.next hover

/-- One more thread is made. -/
theorem Numbered.of_created (h : Numbered m τ p) (hover : p.isOver = false)
    (hnext : q.scheduler.nextId = p.scheduler.nextId.next)
    (hcreated : τ'.created = p.scheduler.nextId :: τ.created) : Numbered m τ' q := by
  have hid := h.next hover
  constructor
  · rw [hcreated, List.reverse_cons, h.created, List.length_cons, ThreadId.following_succ, hid]
  · intro _
    rw [hnext, hid, hcreated]
    rfl

/-- What ends the process starts nothing. -/
theorem initialiser_transcribe_of_over (h : q.isOver = true) (p : Process) (move : Move)
    (τ : Transcript) : (p.transcribe move q τ).initialiser = τ.initialiser := by
  obtain ⟨outcome, hcontrol⟩ := exists_outcome_of_isOver h
  cases move <;> simp [transcribe, seen, hcontrol, Transcript.initialiser]

/-- The thread that starts the scheduler is the first one. -/
theorem Unstarted.numbered {call : Call} (hp : p.Unstarted) (h : p.EarlyEffect call q)
    (hl : Ledger τ q) (hhost : q.host = some m) (hover : q.isOver = false) :
    Numbered m τ q := by
  cases h with
  | answered _ hq => exact nomatch hhost.symm.trans (hq.books.host.trans hp.host)
  | overflowed _ _ hq =>
      rw [hq] at hhost
      exact nomatch hhost.symm.trans hp.host
  | starts _ hq =>
      obtain rfl : p.scheduler.nextId = m := Option.some.inj (hq.host.symm.trans hhost)
      have hthreads := hl.threads
      rw [hq.scheduler, hq.host, Scheduler.ids_start] at hthreads
      have hcreated : τ.created = [] := by simpa [Thread.hosted] using hthreads.length_eq
      constructor
      · rw [hcreated]; rfl
      · intro _
        rw [hq.scheduler, hcreated]
        rfl
  | stopped hstopped => simp [isOver, hstopped] at hover

/-- **Identities are given out without gap**, in every run. -/
theorem Run.numbered (run : Run τ p) (h : τ.initialiser = some m) : Numbered m τ p := by
  induction run with
  | start => contradiction
  | @step τ p move q run hstep ih =>
      have run' := run.step hstep
      cases hover : q.isOver with
      | true =>
          rw [initialiser_transcribe_of_over hover] at h
          have hcreated := (ih h).created
          constructor
          · rwa [created_transcribe_of_over hover]
          · intro hnot
            exact nomatch hover.symm.trans hnot
      | false =>
          have hover' := hstep.isOver_eq_false hover
          have hhost : q.host = some m := (run'.host_eq_initialiser hover).trans h
          have hbefore : p.isInitialised = true → Numbered m τ p := fun hinit =>
            ih ((run.host_eq_initialiser hover').symm.trans
              ((run.host_eq hstep hinit hover).symm.trans hhost))
          cases hstep with
          | call hclient call =>
              obtain ⟨-, ⟨hp, hquiet⟩ | ⟨c, hp⟩⟩ := run.consistent.client hclient
              · obtain ⟨hl, -⟩ := run'.consistent.books hover
                exact hp.numbered (hp.performs hquiet call) hl hhost hover
              · have hnumbered := hbefore hp.books.isInitialised
                rw [transcribe, hp.books.self_eq]
                cases (hp.performs call).numbers hp hover τ with
                | inl hsame => exact hnumbered.congr hover' hsame.1 hsame.2
                | inr hmade => exact hnumbered.of_created hover' hmade.1 hmade.2
          | turn hsettled =>
              obtain ⟨-, c, hp, hq⟩ := run.consistent.turn hsettled
              have hnext : p.advance.scheduler.nextId = p.scheduler.nextId :=
                Proceeds.nextId_eq (p := p.reap) hp.reap hq hover
              exact (hbefore hp.isInitialised).congr hover' hnext
                (Proceeds.created_seen (p := p.reap) hp.reap hq rfl)
          | listen => exact (ih h).congr hover' rfl rfl

/-- Before the start nobody is made. -/
theorem Run.created_eq_nil (run : Run τ p) (h : τ.initialiser = none) : τ.created = [] := by
  induction run with
  | start => rfl
  | @step τ p move q run hstep ih =>
      have run' := run.step hstep
      cases hover : q.isOver with
      | true =>
          rw [created_transcribe_of_over hover]
          exact ih ((initialiser_transcribe_of_over hover p move τ).symm.trans h)
      | false =>
          have hhost : q.host = none := (run'.host_eq_initialiser hover).trans h
          obtain ⟨hl, hp | ⟨c, hp⟩⟩ := run'.consistent.books hover
          · exact hl.created_eq_nil hp
          · obtain ⟨id, -, hid⟩ := hp.host
            exact nomatch hhost.symm.trans hid

/-! ## one call -/

/-- **A call that makes no thread changes nothing.**  One that makes a thread gives
out the next identity, and maps one stack. -/
theorem Run.create_cases (run : Run τ p) (hclient : p.control = .client reply)
    (routine : Routine) (arg : Word) :
    let q := p.perform (.create routine arg)
    (q.control = .client (.thread p.scheduler.nextId) ∧
        q.scheduler.nextId = p.scheduler.nextId.next ∧
        q.scheduler.ids.Perm (p.scheduler.ids ++ [p.scheduler.nextId]) ∧
        q.pool.live = p.pool.live + 1) ∨
      (∀ id, q.control ≠ .client (.thread id)) ∧ q.scheduler = p.scheduler ∧ q.pool = p.pool := by
  intro q
  obtain ⟨-, ⟨hp, hquiet⟩ | ⟨c, hp⟩⟩ := run.consistent.client hclient
  · have hq : q = p.answer (.refused .uninitialised) := if_pos (by simp [hp.isInitialised_eq])
    rw [hq]
    exact .inr ⟨by simp [answer], rfl, rfl⟩
  · have hcases : (∃ stack, p.Creates routine arg stack q ∧ q.signal = p.signal) ∨ _ :=
      hp.create_cases routine arg
    obtain ⟨stack, hcreates, -⟩ | ⟨cause, hoverflowed⟩ | ⟨e, hdies⟩ := hcases
    · refine .inl ⟨hcreates.control, by rw [hcreates.scheduler]; rfl, ?_, ?_⟩
      · rw [hcreates.scheduler]
        exact Scheduler.ids_add p.scheduler.allocateId.2 _
      · exact StackPool.live_of_map hcreates.mapped
    · have hq : q = p.block.leave p.signal.guard (.overflowed cause) := hoverflowed
      rw [hq, leave_guard hp.quiet rfl]
      exact .inr ⟨by simp, rfl, rfl⟩
    · have hq : q = p.block.die (.mapStack e) := hdies
      rw [hq]
      exact .inr ⟨by simp [die, stop], rfl, rfl⟩

/-- **Identities are given out without gap or reuse**, in every run.

* If a call to start has returned to the thread `m`, the threads that were made
  are those that follow `m`, in the order in which they were made.  So the k-th
  call that makes one, whoever makes it and whatever has happened in between, is
  answered with `m + k`; a foreign caller gets the code zero, and that number.
* If none has, none was made.
* A call to make a thread either makes one, with the next identity and a stack of
  its own, or is told of none, and then no identity is used up, no thread added,
  and no stack mapped or given back. -/
theorem identities_are_consecutive (run : Run τ p) :
    (∀ m, τ.initialiser = some m →
      τ.created.reverse = m.following τ.created.length ∧
      ∀ creator routine arg id (earlier : Transcript),
        τ.Answered creator (.create routine arg) (.thread id) earlier →
        id = ⟨m.val + (earlier.created.length + 1)⟩ ∧ (Reply.thread id).code = 0 ∧
          ∀ old, (Reply.thread id).writeOut true old =
            UInt64.ofNat (m.val + (earlier.created.length + 1))) ∧
    (τ.initialiser = none → τ.created = []) ∧
    ∀ reply routine arg, p.control = .client reply →
      let q := p.perform (.create routine arg)
      (q.control = .client (.thread p.scheduler.nextId) ∧
          q.scheduler.nextId = p.scheduler.nextId.next ∧
          q.scheduler.ids.Perm (p.scheduler.ids ++ [p.scheduler.nextId]) ∧
          q.pool.live = p.pool.live + 1) ∨
        (∀ id, q.control ≠ .client (.thread id)) ∧ q.scheduler = p.scheduler ∧
          q.pool = p.pool := by
  refine ⟨fun m hm => ?_, run.created_eq_nil,
    fun reply routine arg hclient => run.create_cases hclient routine arg⟩
  have hcreated := (run.numbered hm).created
  refine ⟨hcreated, fun creator routine arg id earlier h => ?_⟩
  have hsuffix := Transcript.created_suffix h.1
  rw [Transcript.created_answered_create h.2] at hsuffix
  obtain ⟨later, hlater⟩ := hsuffix
  have hk : earlier.created.length < τ.created.length := by
    rw [← hlater]
    simp
    omega
  have hid : τ.created.reverse[earlier.created.length]? = some id := by
    rw [← hlater]
    simp
  rw [hcreated, ThreadId.getElem?_following hk] at hid
  obtain rfl := Option.some.inj hid
  exact ⟨rfl, rfl, fun _ => rfl⟩

/-- The first start overflows, so that the second thread is the one that starts.  It
is preempted by the thread that it has made, which makes another one and exits. -/
theorem three_identities_follow :
    let moves : List Move :=
      [.call (.create ⟨0, .native⟩ 4),
        .call (.init ((Config.ofMicros 1000).withStackSize 18446744073709551615)),
        .call (.init (.ofMicros 1000)), .call (.create ⟨0, .native⟩ 5), .call .raise, .turn,
        .call (.create ⟨0, .foreign⟩ 6), .call (.exit 7), .turn, .call (.cancel ⟨4⟩),
        .call (.create ⟨1, .native⟩ 8)]
    ∃ τ p, ({} : Process).follow [] moves = some (τ, p) ∧ τ.initialiser = some ⟨2⟩ ∧
      τ.created.reverse = [⟨3⟩, ⟨4⟩, ⟨5⟩] := by
  intro moves
  obtain ⟨τ, p, hfollow⟩ : ∃ τ p, ({} : Process).follow [] moves = some (τ, p) := ⟨_, _, rfl⟩
  obtain ⟨hinitialiser, hlength⟩ : τ.initialiser = some ⟨2⟩ ∧ τ.created.length = 3 := by
    obtain ⟨rfl, -⟩ := Prod.mk.inj (Option.some.inj hfollow)
    exact ⟨rfl, rfl⟩
  have hcreated := ((identities_are_consecutive (Run.start.follow hfollow)).1 _ hinitialiser).1
  rw [hlength] at hcreated
  exact ⟨τ, p, hfollow, hinitialiser, hcreated⟩

end Process

end GreenThreads
