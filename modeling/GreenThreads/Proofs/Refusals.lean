import GreenThreads.Program.Machine
import GreenThreads.Proofs.Join
import GreenThreads.Proofs.Underway

/-!
# GreenThreads.Proofs.Refusals

A call that is refused changes nothing.

Errors are found at different depths: before the critical section, right at its
beginning, or by the scheduler.  Wherever one is found, the process afterwards
is the one that made the call, with the refusal for client code to see
(`Run.perform_of_refused`).  It is found in the step of the call, so no other
thread has run meanwhile (`Underway.eq_perform`).

Under the foreign convention a call is refused when its code is not zero.
-/

namespace GreenThreads

/-- The code of a call tells whether it was refused. -/
theorem Reply.code_ne_zero_iff {reply : Reply} :
    reply.code ≠ 0 ↔ ∃ e, reply = .refused e := by
  cases reply with
  | refused e => simp [code, Int.ne_of_lt e.code_neg]
  | _ => simp [code]

namespace Process

variable {τ : Transcript} {p q : Process} {c : Thread} {call : Call} {e : ThreadError}

/-! ## in the step of the call -/

/-- A critical section in which nothing happens leaves no trace. -/
theorem leave_block (hquiet : p.signal.arrives = false) (reply : Reply) :
    p.block.leave p.signal.guard reply = p.answer reply :=
  leave_guard hquiet rfl reply

/-- A process that has only been told something. -/
theorem eq_answer (hq : q = p.answer told) (h : q.control = .client reply) :
    q = p.answer reply := by
  rw [hq] at h
  rw [hq, Control.client.inj h]

theorem Idle.perform_of_refused (hp : p.Idle c)
    (h : (p.perform call).control = .client (.refused e)) :
    p.perform call = p.answer (.refused e) := by
  have hadmits := admits_perform call h
  cases call with
  | init config =>
      have hrefused := hp.init_eq config
      rw [leave_block hp.quiet] at hrefused
      exact eq_answer hrefused h
  | create routine arg =>
      obtain ⟨stack, hcreates, -⟩ | ⟨cause, hoverflowed⟩ | ⟨e', hdies⟩ :=
        hp.create_cases routine arg
      · have hreply := Control.client.inj (h.symm.trans hcreates.control)
        contradiction
      · rw [leave_block hp.quiet] at hoverflowed
        exact eq_answer hoverflowed h
      · rw [perform, hdies] at h
        contradiction
  | join id =>
      cases hbegin : p.scheduler.beginJoin id with
      | error e' =>
          have hrefused := hp.join_of_error hbegin
          rw [leave_block hp.quiet] at hrefused
          exact eq_answer hrefused h
      | ok s => exact absurd h ((hp.proceeds_join hbegin).control_ne_refused e)
  | cancel id =>
      by_cases hid : id = c.id
      · have hexit : (Call.cancel id).exitValue? c.id = some 0 := if_pos hid
        rw [hp.perform_of_exitValue hexit] at h
        exact absurd h (control_exit_ne _ _)
      · cases hcancel : p.scheduler.cancel id with
        | error e' =>
            have hrefused := hp.cancel_of_error hid hcancel
            rw [leave_block hp.quiet] at hrefused
            exact eq_answer hrefused h
        | ok result =>
            have hcancels := (hp.cancels_cancel hid hcancel).1
            have hreply := Control.client.inj (h.symm.trans hcancels.control)
            contradiction
  | _ => contradiction

theorem Unstarted.perform_of_refused (hp : p.Unstarted) (hquiet : p.signal.arrives = false)
    (h : (p.perform call).control = .client (.refused e)) :
    p.perform call = p.answer (.refused e) := by
  have hadmits := admits_perform call h
  have hinit := hp.isInitialised_eq
  cases call with
  | init config =>
      cases hp.inits hquiet config with
      | refused _ hq => exact eq_answer hq h
      | overflowed _ hq =>
          rw [perform, hq] at h
          have hreply := Control.client.inj h
          contradiction
      | starts _ _ _ hdone =>
          have hreply := Control.client.inj (h.symm.trans hdone)
          contradiction
      | stopped hover =>
          rw [perform, hover] at h
          contradiction
  | create routine arg =>
      have hrefused : p.create routine arg = p.answer (.refused .uninitialised) := by
        simp [create, hinit]
      exact eq_answer hrefused h
  | join id =>
      have hrefused : p.join id = p.answer (.refused .uninitialised) := by simp [join, hinit]
      exact eq_answer hrefused h
  | cancel id =>
      have hrefused : p.cancel id = p.answer (.refused .uninitialised) := by simp [cancel, hinit]
      exact eq_answer hrefused h
  | _ => contradiction

/-- **A call that is refused when it is made changes nothing.** -/
theorem Run.perform_of_refused (run : Run τ p) (hclient : p.control = .client reply)
    (h : (p.perform call).control = .client (.refused e)) :
    p.perform call = p.answer (.refused e) := by
  obtain ⟨-, ⟨hp, hquiet⟩ | ⟨c, hp⟩⟩ := run.consistent.client hclient
  · exact hp.perform_of_refused hquiet h
  · exact hp.perform_of_refused h

/-! ## and not later -/

/-- A refusal is seen in the step of the call: turns refuse nothing, and
another thread is refused its own calls only. -/
theorem Underway.eq_perform (h : p.Underway call q) (run : Run τ p) (hself : q.self = p.self)
    (hq : q.control = .client (.refused e)) : q = p.perform call := by
  cases h with
  | called hclient => rfl
  | @step q' move _ h hruns hstep =>
      exfalso
      obtain ⟨τ', run'⟩ := h.run run
      cases hstep with
      | call hclient call' =>
          rw [run'.perform_of_refused hclient hq] at hself
          exact hruns ⟨hself, _, hclient⟩
      | turn hsettled => exact run'.control_advance_ne_refused hsettled e hq
      | listen => exact hruns ⟨hself, _, hq⟩

theorem Returns.eq_answer_of_refused (h : p.Returns call (.refused e) q) (run : Run τ p) :
    q = p.perform call ∧ q = p.answer (.refused e) := by
  have hq := h.underway.eq_perform run h.self h.control
  obtain ⟨reply, hclient⟩ := h.underway.client
  have hcontrol := h.control
  rw [hq] at hcontrol
  exact ⟨hq, hq.trans (run.perform_of_refused hclient hcontrol)⟩

/-- **A call that is refused changes nothing**, in every run, before the
scheduler is started and after.

* The process afterwards is that before, but for the reply that client code is
  to see.  It comes out of the call itself, so no other thread has run.
* Under the foreign convention, where all that is returned is a code, the same
  holds whenever the code is not zero.
* A foreign initialisation that is refused for the sign of its quantum makes no
  call at all. -/
theorem refused_call_changes_nothing (run : Run τ p) :
    (∀ call e q, p.Returns call (.refused e) q →
      q = p.perform call ∧ q = p.answer (.refused e)) ∧
    (∀ call reply q, p.Returns call reply q → reply.code ≠ 0 →
      q = p.perform call ∧ q = p.answer reply) ∧
    ∀ m : Machine, m.process = p → ∀ period a e, Call.foreignInit (m.read period) = .error e →
      (m.perform (.foreignInit period) a).process = p := by
  refine ⟨?_, ?_, ?_⟩
  · intro call e q h
    exact h.eq_answer_of_refused run
  · intro call reply q h hcode
    obtain ⟨e, rfl⟩ := Reply.code_ne_zero_iff.mp hcode
    exact h.eq_answer_of_refused run
  · intro m hm period a e hrefused
    rw [← hm]
    simp only [Machine.perform, Machine.callOf?, hrefused]
    rfl

/-- The initial thread waits for the thread that it has made.  That one may not
wait for it in turn, and is told so while it holds the signal off. -/
theorem reciprocal_join_changes_nothing :
    let moves : List Move :=
      [.call (.init (.ofMicros 1000)), .call (.create ⟨0, .foreign⟩ 5), .call (.join ⟨2⟩), .turn,
        .call .mask]
    ∃ τ p q, ({} : Process).follow [] moves = some (τ, p) ∧
      p.Returns (.join .initial) (.refused (.reciprocalJoin .initial)) q ∧
      q = p.answer (.refused (.reciprocalJoin .initial)) := by
  intro moves
  obtain ⟨τ, p, hfollow⟩ : ∃ τ p, ({} : Process).follow [] moves = some (τ, p) := ⟨_, _, rfl⟩
  have run := Run.start.follow hfollow
  have hreturns : p.Returns (.join .initial) (.refused (.reciprocalJoin .initial))
      (p.perform (.join .initial)) := by
    obtain ⟨-, rfl⟩ := Prod.mk.inj (Option.some.inj hfollow)
    exact ⟨.called rfl, by decide, by decide⟩
  have hsame := (refused_call_changes_nothing run).1 _ _ _ hreturns
  exact ⟨τ, p, _, hfollow, hreturns, hsame.2⟩

end Process

end GreenThreads
