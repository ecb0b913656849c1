import GreenThreads.Proofs.Ledger
import Mathlib.Data.List.Nodup

/-!
# GreenThreads.Proofs.Join

A join tells the truth.  What it says of its target is what is written of it:

* it has returned `v` when it has called to exit with `v` — by returning from
  its routine, say — or has cancelled itself, which is to return zero;
* it was cancelled when the call of another thread to cancel it has returned.

A join that is refused is refused when it is called, and never after it has
waited.  The main statement is `join_tells_the_truth`.
-/

namespace GreenThreads

/-! ## how threads have ended -/

namespace Transcript

variable {id : ThreadId} {v : Word} {m : Moment} {τ : Transcript}

/-- The thread has ended with `v` by its own doing, which the initial thread
never does. -/
def EndedItself (τ : Transcript) (id : ThreadId) (v : Word) : Prop :=
  id ≠ .nobody ∧ id ≠ .initial ∧
    ∃ call earlier, .called id call :: earlier <:+ τ ∧ call.exitValue? id = some v

/-- A call of another thread to cancel the thread has returned. -/
def WasCancelled (τ : Transcript) (id : ThreadId) : Prop :=
  ∃ other earlier, other ≠ id ∧ τ.Answered other (.cancel id) .done earlier

theorem endedItself_cons :
    EndedItself (m :: τ) id v ↔
      (id ≠ .nobody ∧ id ≠ .initial ∧ ∃ call, m = .called id call ∧ call.exitValue? id = some v) ∨
        EndedItself τ id v := by
  simp only [EndedItself, List.suffix_cons_iff, List.cons.injEq]
  constructor
  · rintro ⟨hnobody, hinitial, call, earlier, ⟨rfl, -⟩ | hold, hexit⟩
    · exact .inl ⟨hnobody, hinitial, call, rfl, hexit⟩
    · exact .inr ⟨hnobody, hinitial, call, earlier, hold, hexit⟩
  · rintro (⟨hnobody, hinitial, call, rfl, hexit⟩ | ⟨hnobody, hinitial, call, earlier, hold, hexit⟩)
    · exact ⟨hnobody, hinitial, call, τ, .inl ⟨rfl, rfl⟩, hexit⟩
    · exact ⟨hnobody, hinitial, call, earlier, .inr hold, hexit⟩

theorem answered_cons {call : Call} :
    Answered (m :: τ) id call reply earlier ↔
      (m = .answered id reply ∧ earlier = τ ∧ outstanding id τ = some call) ∨
        Answered τ id call reply earlier := by
  simp only [Answered, List.suffix_cons_iff, List.cons.injEq]
  constructor
  · rintro ⟨⟨rfl, rfl⟩ | hold, hcall⟩
    · exact .inl ⟨rfl, rfl, hcall⟩
    · exact .inr ⟨hold, hcall⟩
  · rintro (⟨rfl, rfl, hcall⟩ | ⟨hold, hcall⟩)
    · exact ⟨.inl ⟨rfl, rfl⟩, hcall⟩
    · exact ⟨.inr hold, hcall⟩

theorem mem_ends_returned : (id, .returned v) ∈ ends τ ↔ EndedItself τ id v := by
  induction τ with
  | nil => simp [ends, EndedItself]
  | cons m τ ih =>
      rw [endedItself_cons, ← ih]
      cases m with
      | called thread call =>
          simp only [ends]
          split
          · next value hexit =>
              split
              · next hnone => grind
              · next hsome => grind
          · next hexit => grind
      | answered thread reply =>
          simp only [ends]
          split <;> simp

theorem mem_ends_cancelled :
    (id, .cancelled) ∈ ends τ ↔ ∃ other earlier, τ.Answered other (.cancel id) .done earlier := by
  induction τ with
  | nil => simp [ends, Answered]
  | cons m τ ih =>
      simp only [answered_cons, exists_or, ← ih]
      cases m with
      | called thread call =>
          simp only [ends]
          split
          · split <;> simp
          · simp
      | answered thread reply =>
          simp only [ends]
          split
          · next other hcall => simp [hcall, eq_comm]
          · next hne => grind

/-- What has ended stays so. -/
theorem ends_suffix (h : τ' <:+ τ) : ends τ' <:+ ends τ := by
  induction τ with
  | nil =>
      obtain rfl := List.suffix_nil.mp h
      exact List.suffix_refl _
  | cons m τ ih =>
      cases List.suffix_cons_iff.mp h with
      | inl heq =>
          subst heq
          exact List.suffix_refl _
      | inr hold =>
          apply (ih hold).trans
          cases m with
          | called thread call => simp only [ends]; grind
          | answered thread reply => simp only [ends]; grind

end Transcript

/-! ## replies that speak of threads -/

/-- What a reply says of other threads is so: one that is joined has ended that
way, and one that is cancelled is not the caller. -/
def Call.Truthful (ends : List (ThreadId × ExitStatus)) (who : ThreadId) : Call → Reply → Prop
  | .join id, .status status => (id, status) ∈ ends
  | .cancel id, .done => id ≠ who
  | _, _ => True

theorem Call.truthful_of_uneventful {call : Call} (h : call.uneventful reply) :
    call.Truthful ends who reply := by
  unfold Truthful
  split
  · contradiction
  · contradiction
  · trivial

theorem Due.truthful {call : Call} (h : Due ended (some call) reply) (hsub : ended ⊆ ends) :
    call.Truthful ends who reply := by
  cases h with
  | done hgives => cases call <;> trivial
  | joined hmem => exact hsub hmem

namespace Process

variable {τ : Transcript} {p q : Process} {c : Thread}

theorem Proceeds.truthful {call : Option Call} (hp : p.Books c) (hl : Ledger τ p)
    (hcall : τ.outstanding c.id = call) (hq : p.Proceeds c call q)
    (hreply : q.control = .client reply) (hmade : τ.outstanding q.self = some made) :
    made.Truthful τ.ends q.self reply := by
  have hsub : p.scheduler.ended ⊆ τ.ends := by
    rw [hl.ends]
    exact (List.reverse_perm _).symm.subset
  cases hq with
  | answered hdue hq =>
      have hactive : (p.withCurrent c.active).Books c.active := hp.setCurrent rfl rfl rfl
      have hself : q.self = c.id := (hactive.congr hq.books).self_eq
      rw [hself] at hmade ⊢
      obtain rfl : call = some made := hcall.symm.trans hmade
      obtain rfl := Control.client.inj (hq.control.symm.trans hreply)
      exact hdue.truthful hsub
  | paused _ _ _ hq => simp [hq.control] at hreply
  | stopped hover => simp [hover] at hreply

theorem CallEffect.truthful {call : Call} (hp : p.Idle c) (hl : Ledger τ p)
    (hq : p.CallEffect c call q) (hreply : q.control = .client reply)
    (hmade : Transcript.outstanding q.self (.called c.id call :: τ) = some made) :
    made.Truthful (Transcript.ends (.called c.id call :: τ)) q.self reply := by
  have hcall : Transcript.outstanding c.id (.called c.id call :: τ) = some call :=
    Transcript.outstanding_called_self ..
  cases hq with
  | answered hexit hplain hq =>
      rw [(hp.books.congr hq.books).self_eq] at hmade ⊢
      obtain rfl := Option.some.inj (hcall.symm.trans hmade)
      obtain rfl := Control.client.inj (hq.control.symm.trans hreply)
      exact Call.truthful_of_uneventful hplain
  | proceeds hexit hq => exact hq.truthful hp.books (hl.called hp.books hexit) hcall hreply hmade
  | creates hmake hq =>
      rw [(hp.books.creates hq).self_eq] at hmade ⊢
      obtain rfl := Option.some.inj (hcall.symm.trans hmade)
      subst hmake
      trivial
  | cancels hmake hne hq =>
      rw [(hp.books.cancels hq).self_eq] at hmade ⊢
      obtain rfl := Option.some.inj (hcall.symm.trans hmade)
      obtain rfl := Control.client.inj (hq.control.symm.trans hreply)
      subst hmake
      exact hne
  | retires _ _ hq => simp [hq.control] at hreply
  | stopped hover => simp [hover] at hreply

theorem EarlyEffect.truthful {call : Call} (hp : p.Unstarted) (hl : Ledger τ p)
    (hq : p.EarlyEffect call q) (hreply : q.control = .client reply)
    (hmade : Transcript.outstanding q.self (.called .nobody call :: τ) = some made) :
    made.Truthful (Transcript.ends (.called .nobody call :: τ)) q.self reply := by
  have hcall : Transcript.outstanding .nobody (.called .nobody call :: τ) = some call :=
    Transcript.outstanding_called_self ..
  cases hq with
  | answered hplain hq =>
      rw [(hp.congr hq.books).self_eq] at hmade ⊢
      obtain rfl := Option.some.inj (hcall.symm.trans hmade)
      obtain rfl := Control.client.inj (hq.control.symm.trans hreply)
      exact Call.truthful_of_uneventful hplain
  | overflowed hinit _ hq =>
      subst hq
      rw [(hp.allocateId _).self_eq] at hmade ⊢
      obtain rfl := Option.some.inj (hcall.symm.trans hmade)
      subst hinit
      trivial
  | starts _ hq =>
      -- the initial thread has made no call yet
      rw [(hp.starts hq).self_eq, Thread.hosted,
        Transcript.outstanding_called_ne hp.nobody_ne_nextId, hl.fresh _ (Nat.le_refl _)] at hmade
      contradiction
  | stopped hover => simp [hover] at hreply

/-- **Every reply speaks the truth** about the threads that it speaks of. -/
theorem Run.truthful {call : Call} (run : Run τ p) (h : τ.Answered who call reply earlier) :
    call.Truthful earlier.ends who reply := by
  obtain ⟨hsuffix, hcall⟩ := h
  obtain ⟨q, hreply, rfl, -, hreached⟩ := run.exists_of_answered hsuffix
  cases hreached with
  | @call τ p _ run hclient made hq hτ =>
      subst hq hτ
      obtain ⟨hl, ⟨hp, hquiet⟩ | ⟨c, hp⟩⟩ := run.consistent.client hclient
      · rw [hp.self_eq] at hcall ⊢
        exact (hp.performs hquiet made).truthful hp hl hreply hcall
      · rw [hp.books.self_eq] at hcall ⊢
        exact (hp.performs made).truthful hp hl hreply hcall
  | turn run hsettled hq =>
      subst hq
      obtain ⟨hl, c, hp, hproceeds⟩ := run.consistent.turn hsettled
      exact hproceeds.truthful hp.reap hl.reap rfl hreply hcall

/-- A thread ends once. -/
theorem Run.ends_unique {call : Call} {id : ThreadId} (run : Run τ p)
    (h : τ.Answered who call reply earlier) (hs : (id, status) ∈ earlier.ends)
    (hs' : (id, status') ∈ earlier.ends) : status' = status := by
  obtain ⟨q, hreply, -, hrun, -⟩ := run.exists_of_answered h.1
  have hnodup : ((Transcript.ends (.answered who reply :: earlier)).map Prod.fst).Nodup := by
    obtain ⟨hl, ⟨hp, -⟩ | ⟨c, hp⟩⟩ := hrun.consistent.client hreply
    · rw [hl.ends, List.map_reverse, List.nodup_reverse]
      exact hp.placed.nodup_ended
    · rw [hl.ends, List.map_reverse, List.nodup_reverse]
      exact hp.books.placed.nodup_ended
  have hsub := (Transcript.ends_suffix (List.suffix_cons (.answered who reply) earlier)).sublist
  have hnodup' := (hsub.map Prod.fst).nodup hnodup
  have heq := List.inj_on_of_nodup_map hnodup' hs hs' rfl
  exact (congrArg Prod.snd heq).symm

/-- A thread that others were told to have been cancelled was cancelled by
another one. -/
theorem Run.wasCancelled {earlier : Transcript} {id : ThreadId} (run : Run τ p)
    (hsuffix : earlier <:+ τ) (h : (id, .cancelled) ∈ earlier.ends) :
    earlier.WasCancelled id := by
  obtain ⟨other, before, hcancelled⟩ := Transcript.mem_ends_cancelled.mp h
  have htruthful := run.truthful ⟨hcancelled.1.trans hsuffix, hcancelled.2⟩
  exact ⟨other, before, Ne.symm htruthful, hcancelled⟩

/-- A thread that goes on is refused nothing. -/
theorem Proceeds.control_ne_refused {call : Option Call} (h : p.Proceeds c call q)
    (e : ThreadError) : q.control ≠ .client (.refused e) := by
  intro hrefused
  cases h with
  | answered hdue hq =>
      exact hdue.ne_refused e (Control.client.inj (hq.control.symm.trans hrefused))
  | paused _ _ _ hq => simp [hq.control] at hrefused
  | stopped hover => simp [hover] at hrefused

/-- A turn refuses nothing. -/
theorem Run.control_advance_ne_refused (run : Run τ p) (hsettled : p.isSettled = false)
    (e : ThreadError) : p.advance.control ≠ .client (.refused e) := by
  obtain ⟨-, c, -, hq⟩ := run.consistent.turn hsettled
  exact hq.control_ne_refused e

/-- A join is refused when it is called, if at all. -/
theorem Run.join_refused_iff {id : ThreadId} (run : Run τ p) (hclient : p.control = .client reply)
    (e : ThreadError) :
    (p.perform (.join id)).control = .client (.refused e) ↔
      if p.isInitialised then p.scheduler.beginJoin id = .error e else e = .uninitialised := by
  obtain ⟨-, ⟨hp, -⟩ | ⟨c, hp⟩⟩ := run.consistent.client hclient
  · have hinit : p.isInitialised = false := by rw [isInitialised, hp.host]; rfl
    simp [perform, join, hinit, answer, eq_comm]
  · rw [if_pos hp.books.isInitialised]
    cases hbegin : p.scheduler.beginJoin id with
    | error e' =>
        have hcontrol : (p.perform (.join id)).control = .client (.refused e') :=
          (hp.answers_join hbegin).control
        simp [hcontrol]
    | ok s => exact iff_of_false ((hp.proceeds_join hbegin).control_ne_refused e) (by simp)

/-- Once a thread has ended, to join it is to be told how. -/
theorem Run.control_join_of_mem_ends {id : ThreadId} (run : Run τ p)
    (hclient : p.control = .client reply) (h : (id, status) ∈ τ.ends) :
    (p.perform (.join id)).control = .client (.status status) := by
  obtain ⟨hl, ⟨hp, -⟩ | ⟨c, hp⟩⟩ := run.consistent.client hclient
  · rw [hl.ends, hp.scheduler] at h
    simp [Scheduler.ended] at h
  · obtain ⟨t, ht, rfl, hstatus⟩ := hl.mem_ends_iff.mp h
    exact hp.control_join_of_zombie ht hstatus

/-- **A join tells the truth**, in every run.

* What it says is how its target has ended, which has happened before.
* Every other join of that thread says the same, and a later one does so
  without waiting.
* It is refused in the step of the call, for the reason that `beginJoin` gives,
  and never by a turn: one that has begun to wait is never refused.
* The initial thread is never said to have returned. -/
theorem join_tells_the_truth (run : Run τ p) :
    (∀ who id status earlier, τ.Answered who (.join id) (.status status) earlier →
      (∀ v, status = .returned v ↔ earlier.EndedItself id v) ∧
        (status = .cancelled ↔ earlier.WasCancelled id)) ∧
    (∀ who id status earlier, τ.Answered who (.join id) (.status status) earlier →
      (∀ who' status' earlier', τ.Answered who' (.join id) (.status status') earlier' →
        status' = status) ∧
      ∀ reply, p.control = .client reply →
        (p.perform (.join id)).control = .client (.status status)) ∧
    (∀ reply, p.control = .client reply → ∀ id e,
      (p.perform (.join id)).control = .client (.refused e) ↔
        if p.isInitialised then p.scheduler.beginJoin id = .error e else e = .uninitialised) ∧
    (p.isSettled = false → ∀ e, p.advance.control ≠ .client (.refused e)) ∧
    ∀ who v earlier, ¬ τ.Answered who (.join .initial) (.status (.returned v)) earlier := by
  have htold : ∀ who id status earlier, τ.Answered who (.join id) (.status status) earlier →
      (∀ v, status = .returned v ↔ earlier.EndedItself id v) ∧
        (status = .cancelled ↔ earlier.WasCancelled id) := by
    intro who id status earlier h
    have hmem : (id, status) ∈ earlier.ends := run.truthful h
    have hsuffix : earlier <:+ τ := (List.suffix_cons _ earlier).trans h.1
    constructor
    · intro v
      rw [← Transcript.mem_ends_returned]
      exact ⟨fun heq => heq ▸ hmem, fun hv => run.ends_unique h hv hmem⟩
    · constructor
      · intro heq
        exact run.wasCancelled hsuffix (heq ▸ hmem)
      · intro hcancelled
        obtain ⟨other, before, -, hother⟩ := hcancelled
        exact run.ends_unique h (Transcript.mem_ends_cancelled.mpr ⟨other, before, hother⟩) hmem
  refine ⟨htold, ?_, ?_, ?_, ?_⟩
  · intro who id status earlier h
    have hmem : (id, status) ∈ earlier.ends := run.truthful h
    have hsuffix : earlier <:+ τ := (List.suffix_cons _ earlier).trans h.1
    constructor
    · intro who' status' earlier' h'
      have hmem' : (id, status') ∈ earlier'.ends := run.truthful h'
      have hsuffix' : earlier' <:+ τ := (List.suffix_cons _ earlier').trans h'.1
      -- the joins were answered one after the other
      cases List.suffix_or_suffix_of_suffix hsuffix hsuffix' with
      | inl hfirst =>
          exact run.ends_unique h' ((Transcript.ends_suffix hfirst).subset hmem) hmem'
      | inr hsecond =>
          exact run.ends_unique h hmem ((Transcript.ends_suffix hsecond).subset hmem')
    · intro reply hclient
      exact run.control_join_of_mem_ends hclient ((Transcript.ends_suffix hsuffix).subset hmem)
  · intro reply hclient id e
    exact run.join_refused_iff hclient e
  · intro hsettled e
    exact run.control_advance_ne_refused hsettled e
  · intro who v earlier h
    have hended := ((htold who .initial (.returned v) earlier h).1 v).mp rfl
    exact hended.2.1 rfl

/-- The initial thread makes two threads, cancels one and joins both. -/
theorem two_joins_tell_the_truth :
    let moves : List Move :=
      [.call (.init (.ofMicros 1000)), .call (.create ⟨0, .native⟩ 5),
        .call (.create ⟨0, .foreign⟩ 6), .call (.cancel ⟨3⟩), .call (.join ⟨2⟩), .turn,
        .call (.exit 7), .turn, .call (.join ⟨3⟩)]
    ∃ τ p returned cancelled, ({} : Process).follow [] moves = some (τ, p) ∧
      τ.Answered .initial (.join ⟨2⟩) (.status (.returned 7)) returned ∧
      returned.EndedItself ⟨2⟩ 7 ∧
      τ.Answered .initial (.join ⟨3⟩) (.status .cancelled) cancelled ∧
      cancelled.WasCancelled ⟨3⟩ := by
  intro moves
  obtain ⟨τ, p, hfollow⟩ : ∃ τ p, ({} : Process).follow [] moves = some (τ, p) := ⟨_, _, rfl⟩
  obtain ⟨returned, hreturned⟩ :
      ∃ earlier, τ.Answered .initial (.join ⟨2⟩) (.status (.returned 7)) earlier := by
    obtain ⟨rfl, -⟩ := Prod.mk.inj (Option.some.inj hfollow)
    exact ⟨_, ⟨_ :: _ :: [], rfl⟩, rfl⟩
  obtain ⟨cancelled, hcancelled⟩ :
      ∃ earlier, τ.Answered .initial (.join ⟨3⟩) (.status .cancelled) earlier := by
    obtain ⟨rfl, -⟩ := Prod.mk.inj (Option.some.inj hfollow)
    exact ⟨_, ⟨[], rfl⟩, rfl⟩
  have h := join_tells_the_truth (Run.start.follow hfollow)
  exact ⟨τ, p, returned, cancelled, hfollow, hreturned, ((h.1 _ _ _ _ hreturned).1 7).mp rfl,
    hcancelled, (h.1 _ _ _ _ hcancelled).2.mp rfl⟩

end Process

end GreenThreads
