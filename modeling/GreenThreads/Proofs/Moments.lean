import GreenThreads.Proofs.Join
import GreenThreads.Proofs.Underway

/-!
# GreenThreads.Proofs.Moments

Where a thread was when something was written of it.

* A reply is seen by the thread that has called (`Run.self_perform`,
  `Run.advance_client`); only whoever starts the scheduler becomes another
  thread by its call.
* A call is answered in its own step or by a turn (`Run.answered_cases`).
* While the code of a thread runs, the last that is written is the reply that
  it sees (`Run.head_of_client`), so it has no call to be answered.
* For every moment there was a process in which the code of its thread ran, and
  that knew what had been written before (`Run.exists_of_moment`).
* Of an identity that has not been given out nothing is written (`Run.silent`),
  so nothing is written of a thread until it has been made
  (`Run.silent_of_made`).
-/

namespace GreenThreads

/-- The thread whose moment it is. -/
def Moment.thread : Moment → ThreadId
  | .called thread _ | .answered thread _ => thread

namespace Transcript

variable {τ τ' : Transcript} {id : ThreadId} {m : Moment}

/-- Nothing is written of the thread. -/
def Silent (τ : Transcript) (id : ThreadId) : Prop := ∀ m ∈ τ, m.thread ≠ id

/-- A call to make a thread with that routine and that argument has returned
it. -/
def Made (τ : Transcript) (id : ThreadId) (routine : Routine) (arg : Word) : Prop :=
  ∃ creator earlier, τ.Answered creator (.create routine arg) (.thread id) earlier

theorem silent_cons : Silent (m :: τ) id ↔ m.thread ≠ id ∧ τ.Silent id := List.forall_mem_cons

theorem outstanding_cons_of_ne (h : m.thread ≠ id) (τ : Transcript) :
    outstanding id (m :: τ) = outstanding id τ := by
  cases m with
  | called other call => exact outstanding_called_ne h call τ
  | answered other reply => exact outstanding_answered_ne h reply τ

/-- A thread of which nothing is written has made no call. -/
theorem Silent.outstanding_eq (h : τ.Silent id) : τ.outstanding id = none := by
  induction τ with
  | nil => rfl
  | cons m τ ih =>
      obtain ⟨hm, hrest⟩ := silent_cons.mp h
      rw [outstanding_cons_of_ne hm, ih hrest]

theorem Made.mono (h : Made τ id routine arg) (hsuffix : τ <:+ τ') : Made τ' id routine arg := by
  obtain ⟨creator, earlier, hmade, hcall⟩ := h
  exact ⟨creator, earlier, hmade.trans hsuffix, hcall⟩

/-- The threads that were made are those that some call has returned. -/
theorem mem_created_iff : id ∈ τ.created ↔ ∃ routine arg, τ.Made id routine arg := by
  induction τ with
  | nil => simp [created, Made, Answered]
  | cons m τ ih =>
      simp only [Made] at ih
      simp only [Made, answered_cons, exists_or, ← ih]
      cases m with
      | called thread call => simp [created]
      | answered thread reply =>
          simp only [created]
          split
          · next made hcall => simp [hcall, eq_comm]
          · next hne => grind

end Transcript

namespace Process

variable {τ : Transcript} {p q : Process} {c : Thread} {call : Call} {id : ThreadId} {move : Move}
  {m : Moment}

/-! ## who sees a reply -/

theorem Proceeds.due {call : Option Call} (h : p.Proceeds c call q)
    (hreply : q.control = .client reply) : Due p.scheduler.ended call reply := by
  cases h with
  | answered hdue hq =>
      obtain rfl := Control.client.inj (hq.control.symm.trans hreply)
      exact hdue
  | paused _ _ _ hq => exact nomatch hq.control.symm.trans hreply
  | stopped hover => exact nomatch hover.symm.trans hreply

theorem Proceeds.self_of_client {call : Option Call} (hp : p.Books c) (h : p.Proceeds c call q)
    (hreply : q.control = .client reply) : q.self = c.id := by
  cases h with
  | answered _ hq =>
      have hactive : (p.withCurrent c.active).Books c.active := hp.setCurrent rfl rfl rfl
      exact (hactive.congr hq.books).self_eq
  | paused _ _ _ hq => exact nomatch hq.control.symm.trans hreply
  | stopped hover => exact nomatch hover.symm.trans hreply

theorem CallEffect.self_of_client (hp : p.Idle c) (h : p.CallEffect c call q)
    (hreply : q.control = .client reply) : q.self = c.id := by
  cases h with
  | answered _ _ hq => exact (hp.books.congr hq.books).self_eq
  | proceeds _ hq => exact hq.self_of_client hp.books hreply
  | creates _ hq => exact (hp.books.creates hq).self_eq
  | cancels _ _ hq => exact (hp.books.cancels hq).self_eq
  | retires _ _ hq => exact nomatch hq.control.symm.trans hreply
  | stopped hover => exact nomatch hover.symm.trans hreply

/-- A call that is answered at once is answered to its caller, unless its caller
becomes a thread by it. -/
theorem Run.self_perform (run : Run τ p) (hclient : p.control = .client told)
    (hreply : (p.perform call).control = .client reply) :
    (p.perform call).self = p.self ∨
      p.Unstarted ∧ (p.perform call).self = p.scheduler.nextId ∧ p.self = .nobody ∧
        reply = .done ∧ ∃ config, call = .init config := by
  obtain ⟨-, ⟨hp, hquiet⟩ | ⟨c, hp⟩⟩ := run.consistent.client hclient
  · rw [hp.self_eq]
    cases hp.performs hquiet call with
    | answered _ hq => exact .inl (hp.congr hq.books).self_eq
    | overflowed _ _ hq => rw [hq]; exact .inl (hp.allocateId _).self_eq
    | starts hcall hq hdone =>
        obtain rfl := Control.client.inj (hdone.symm.trans hreply)
        exact .inr ⟨hp, (hp.starts hq).self_eq, rfl, rfl, _, hcall⟩
    | stopped hover => exact nomatch hover.symm.trans hreply
  · rw [hp.books.self_eq]
    exact .inl ((hp.performs call).self_of_client hp hreply)

/-- A turn lets the thread go on that has arrived, and tells it what is due. -/
theorem Run.advance_client (run : Run τ p) (hsettled : p.isSettled = false)
    (hreply : p.advance.control = .client reply) :
    p.advance.self = p.self ∧ Due p.scheduler.ended (τ.outstanding p.self) reply := by
  obtain ⟨-, c, hp, hq⟩ := run.consistent.turn hsettled
  rw [hp.self_eq]
  exact ⟨Proceeds.self_of_client (p := p.reap) hp.reap hq hreply, hq.due hreply⟩

/-! ## what is written in a step -/

theorem suffix_seen (p : Process) (τ : Transcript) : τ <:+ p.seen τ := by
  unfold seen
  split
  · exact List.suffix_cons _ _
  · exact List.suffix_refl _

/-- A transcript only grows. -/
theorem suffix_transcribe (p : Process) (move : Move) (q : Process) (τ : Transcript) :
    τ <:+ p.transcribe move q τ := by
  cases move with
  | call call => exact (List.suffix_cons _ τ).trans (suffix_seen q _)
  | turn => exact suffix_seen q τ
  | listen => exact List.suffix_refl τ

/-- A run goes on from where it is. -/
theorem Run.extends_later (run : Run τ p) (h : p.Later q) : ∃ τ', Run τ' q ∧ τ <:+ τ' := by
  induction h with
  | refl => exact ⟨τ, run, List.suffix_refl τ⟩
  | tail _ hstep ih =>
      obtain ⟨τ', run', hsuffix⟩ := ih
      obtain ⟨move, hmove⟩ := hstep
      exact ⟨_, run'.step hmove, hsuffix.trans (suffix_transcribe ..)⟩

/-- What is written in a step is of the thread whose code runs before or after
it. -/
theorem silent_transcribe (h : τ.Silent id) (hp : p.self ≠ id)
    (hq : ∀ reply, q.control = .client reply → q.self ≠ id) :
    (p.transcribe move q τ).Silent id := by
  have hseen : ∀ τ : Transcript, τ.Silent id → (q.seen τ).Silent id := by
    intro τ hτ
    unfold seen
    split
    · next reply hcontrol => exact Transcript.silent_cons.mpr ⟨hq reply hcontrol, hτ⟩
    · exact hτ
  cases move with
  | call call => exact hseen _ (Transcript.silent_cons.mpr ⟨hp, h⟩)
  | turn => exact hseen τ h
  | listen => exact h

/-- Of an identity that has not been given out nothing is written. -/
theorem Run.silent (run : Run τ p) (hover : p.isOver = false)
    (h : p.scheduler.nextId.val ≤ id.val) : τ.Silent id := by
  induction run with
  | start => simp [Transcript.Silent]
  | @step τ p move q run hstep ih =>
      have hover' := hstep.isOver_eq_false hover
      have hle := run.nextId_le hstep hover
      have hself := run.self_lt hover'
      have hself' := (run.step hstep).self_lt hover
      have hne : ∀ other : ThreadId, other.val < q.scheduler.nextId.val → other ≠ id := by
        intro other hlt heq
        rw [heq] at hlt
        omega
      exact silent_transcribe (ih hover' (Nat.le_trans hle h))
        (hne _ (Nat.lt_of_lt_of_le hself hle)) fun _ _ => hne _ hself'

/-! ## where a moment comes from -/

/-- While client code runs, the last moment is the one in which it has seen its
reply. -/
theorem Run.head_of_client (run : Run τ p) (hclient : p.control = .client reply) :
    τ = [] ∨ ∃ earlier, τ = .answered p.self reply :: earlier := by
  induction run with
  | start => exact .inl rfl
  | @step τ p move q run hstep ih =>
      cases hstep with
      | call _ call =>
          rw [transcribe, seen_client hclient]
          exact .inr ⟨_, rfl⟩
      | turn =>
          rw [transcribe, seen_client hclient]
          exact .inr ⟨_, rfl⟩
      | listen => exact ih hclient

/-- The thread whose code runs has no call to be answered. -/
theorem Run.outstanding_self (run : Run τ p) (hclient : p.control = .client reply) :
    τ.outstanding p.self = none := by
  cases run.head_of_client hclient with
  | inl hnone => rw [hnone]; rfl
  | inr hseen =>
      obtain ⟨earlier, heq⟩ := hseen
      rw [heq]
      exact if_pos rfl

theorem Run.exists_of_called (run : Run τ p) (h : .called who call :: earlier <:+ τ) :
    ∃ q reply, Run earlier q ∧ q.control = .client reply ∧ q.self = who := by
  have hseen : ∀ (q : Process) (τ : Transcript), .called who call :: earlier <:+ q.seen τ →
      .called who call :: earlier <:+ τ := by
    intro q τ hsuffix
    unfold seen at hsuffix
    split at hsuffix
    · exact (List.suffix_cons_iff.mp hsuffix).resolve_left (by simp)
    · exact hsuffix
  induction run with
  | start => simp at h
  | @step τ p move q run hstep ih =>
      cases hstep with
      | call hclient made =>
          cases List.suffix_cons_iff.mp (hseen _ _ h) with
          | inl heq =>
              obtain ⟨hmoment, rfl⟩ := List.cons.inj heq
              obtain ⟨rfl, -⟩ := Moment.called.inj hmoment
              exact ⟨p, _, run, hclient, rfl⟩
          | inr hold => exact ih hold
      | turn => exact ih (hseen _ _ h)
      | listen => exact ih h

/-- **For every moment there was a process** in which the code of its thread
ran, and all had been written that was before the moment. -/
theorem Run.exists_of_moment (run : Run τ p) (h : m :: earlier <:+ τ) :
    ∃ τ' q reply, Run τ' q ∧ q.control = .client reply ∧ q.self = m.thread ∧ earlier <:+ τ' := by
  cases m with
  | called who call =>
      obtain ⟨q, reply, run', hclient, hself⟩ := run.exists_of_called h
      exact ⟨earlier, q, reply, run', hclient, hself, List.suffix_refl _⟩
  | answered who reply =>
      obtain ⟨q, hclient, hself, run', -⟩ := run.exists_of_answered h
      exact ⟨_, q, reply, run', hclient, hself, List.suffix_cons _ _⟩

/-! ## threads that are made -/

theorem CallEffect.of_create (h : p.CallEffect c (.create routine arg) q)
    (hreply : q.control = .client (.thread id)) :
    ∃ stack, p.Creates routine arg stack q ∧ id = p.scheduler.nextId := by
  cases h with
  | answered _ hplain hq =>
      obtain rfl := Control.client.inj (hq.control.symm.trans hreply)
      contradiction
  | proceeds _ hq => exact nomatch (hq.due hreply)
  | creates hcall hq =>
      obtain ⟨rfl, rfl⟩ := Call.create.inj hcall
      obtain rfl := Reply.thread.inj (Control.client.inj (hq.control.symm.trans hreply))
      exact ⟨_, hq, rfl⟩
  | cancels hcall => exact nomatch hcall
  | retires hexit => exact nomatch hexit
  | stopped hover => exact nomatch hover.symm.trans hreply

/-- Where there are no threads none is made. -/
theorem EarlyEffect.not_create (h : p.EarlyEffect (.create routine arg) q) :
    q.control ≠ .client (.thread id) := by
  intro hreply
  cases h with
  | answered hplain hq =>
      obtain rfl := Control.client.inj (hq.control.symm.trans hreply)
      contradiction
  | overflowed hcall => exact nomatch hcall
  | starts hcall => exact nomatch hcall
  | stopped hover => exact nomatch hover.symm.trans hreply

/-- A call that has been answered was answered in its own step, or is one that a
turn may answer. -/
theorem Run.answered_cases {call : Call} (run : Run τ p)
    (h : τ.Answered id call reply earlier) :
    (∃ σ q told, Run σ q ∧ q.control = .client told ∧ q.self = id ∧
      earlier = .called id call :: σ ∧ (q.perform call).control = .client reply) ∨
      ∃ ended, Due ended (some call) reply := by
  obtain ⟨hsuffix, hcall⟩ := h
  obtain ⟨r, hreply, rfl, -, hreached⟩ := run.exists_of_answered hsuffix
  cases hreached with
  | @call τ q _ run hclient made hr hτ =>
      subst hr hτ
      cases run.self_perform hclient hreply with
      | inl hself =>
          rw [hself] at hcall ⊢
          obtain rfl := Option.some.inj ((Transcript.outstanding_called_self ..).symm.trans hcall)
          exact .inl ⟨τ, q, _, run, hclient, rfl, rfl, hreply⟩
      | inr hstarts =>
          -- of the thread that has just started nothing was written before
          obtain ⟨-, hself, hnobody, -⟩ := hstarts
          have hne : q.self ≠ (q.perform made).self := by
            have hlt := run.self_lt (isOver_of_client hclient)
            rw [hself]
            intro heq
            exact Nat.lt_irrefl _ (heq ▸ hlt)
          have hsilent : τ.Silent q.scheduler.nextId :=
            run.silent (isOver_of_client hclient) (Nat.le_refl _)
          rw [Transcript.outstanding_called_ne hne, hself, hsilent.outstanding_eq] at hcall
          contradiction
  | turn run hsettled hr =>
      subst hr
      obtain ⟨hself, hdue⟩ := run.advance_client hsettled hreply
      rw [hself] at hcall
      rw [hcall] at hdue
      exact .inr ⟨_, hdue⟩

/-- **How a thread is made**: by a call that is answered at once, and is given the
identity that was to be given out next. -/
theorem Run.exists_creates (run : Run τ p)
    (h : τ.Answered id (.create routine arg) (.thread made) earlier) :
    ∃ τ' q c stack, Run τ' q ∧ q.isOver = false ∧ q.Idle c ∧ c.id = id ∧
      earlier = .called id (.create routine arg) :: τ' ∧ made = q.scheduler.nextId ∧
      q.Creates routine arg stack (q.perform (.create routine arg)) := by
  obtain ⟨σ, q, told, run', hclient, rfl, rfl, hreply⟩ | ⟨ended, hdue⟩ := run.answered_cases h
  · obtain ⟨-, ⟨hq, hquiet⟩ | ⟨c, hq⟩⟩ := run'.consistent.client hclient
    · exact absurd hreply (hq.performs hquiet _).not_create
    · obtain ⟨stack, hcreates, hmade⟩ := (hq.performs _).of_create hreply
      exact ⟨σ, q, c, stack, run', isOver_of_client hclient, hq, hq.books.self_eq.symm, rfl,
        hmade, hcreates⟩
  · exact nomatch hdue

/-- Nothing is written of a thread until it has been made. -/
theorem Run.silent_of_made (run : Run τ p)
    (h : τ.Answered id (.create routine arg) (.thread made) earlier) : earlier.Silent made := by
  obtain ⟨τ', q, c, stack, run', hover, hq, rfl, rfl, rfl, hcreates⟩ := run.exists_creates h
  have hne : c.id ≠ q.scheduler.nextId := hq.books.ne_of_nextId_le (Nat.le_refl _)
  exact Transcript.silent_cons.mpr ⟨hne, run'.silent hover (Nat.le_refl _)⟩

end Process

end GreenThreads
