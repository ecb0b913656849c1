import GreenThreads.Proofs.Moments

/-!
# GreenThreads.Proofs.Finality

To have ended is final.

* Threads are only ever added to the zombies, by the two operations that end a
  thread (`zombies_act`), so that a descriptor that is among them stays there as
  it is (`zombies_after`).
* A call with which a thread leaves is never answered (`Run.leaves_eq_false`):
  once a thread has left, nothing more is written of it (`Run.not_hasLeft`).
* Whose code runs has not ended (`Run.self_notMem_ends`).

The main statement is `termination_is_final`.
-/

namespace GreenThreads

namespace Scheduler

variable {s : Scheduler} {t : Thread} {o : Operation}

/-! ## the zombies of a scheduler -/

/-- How a thread is left behind by an operation that ends it: it was current and
finishes with a value, or it was ready and is cancelled. -/
inductive Ending (s : Scheduler) (o : Operation) : Thread → Prop where
  | finished (hc : s.current = some c) (ho : o = .retire v) : Ending s o (c.finish v)
  | cancelled (hu : u ∈ s.ready) (ho : o = .cancel u.id) : Ending s o u.cancel

/-- What has ended may be joined by one thread more. -/
def Buries (s : Scheduler) (o : Operation) (zombies : List Thread) : Prop :=
  zombies = s.zombies ∨ ∃ t, s.Ending o t ∧ zombies = s.zombies ++ [t]

theorem buries_rotate (h : s.Placed) : s.Buries .rotate s.rotate.2.zombies := by
  cases hc : s.current with
  | none => rw [rotate_of_none hc]; exact .inl rfl
  | some c =>
      cases hr : s.ready with
      | nil => rw [rotate_nil hr]; exact .inl rfl
      | cons n rest => rw [rotate_cons h hc hr]; exact .inl rfl

theorem buries_retire (h : s.Placed) (v : Word) : s.Buries (.retire v) (s.retire v).2.zombies := by
  cases hc : s.current with
  | none => rw [retire_of_none hc]; exact .inl rfl
  | some c =>
      cases hr : s.ready with
      | nil => rw [retire_nil hr]; exact .inl rfl
      | cons n rest => rw [retire_cons h hc hr]; exact .inr ⟨_, .finished hc rfl, rfl⟩

theorem buries_cancel {id : ThreadId} (h : s.Placed) (hs : s.cancel id = .ok (freed, s')) :
    s.Buries (.cancel id) s'.zombies := by
  obtain ⟨front, u, back, hr, rfl, -, rfl⟩ := exists_of_cancel h hs
  exact .inr ⟨u.cancel, .cancelled (by simp [hr]) rfl, rfl⟩

/-- **What an operation does to the zombies**: unless the scheduler starts over
they stay, and at most the thread that it ends is added. -/
theorem buries_act (h : s.Placed) (ho : ∀ size, o ≠ .start size) :
    s.Buries o (s.act o).scheduler.zombies := by
  cases o with
  | start size => exact absurd rfl (ho size)
  | allocateId | spawn | spawnHosted | reap => exact .inl rfl
  | rotate => exact buries_rotate h
  | retire v => exact buries_retire h v
  | cancel id =>
      cases scheduler_act_cancel s id with
      | inl heq => rw [heq]; exact .inl rfl
      | inr hok => exact buries_cancel h hok.choose_spec
  | beginJoin id =>
      cases scheduler_act_beginJoin s id with
      | inl heq => rw [heq]; exact .inl rfl
      | inr heq => rw [heq]; exact .inl rfl
  | endJoin id => rw [scheduler_act_endJoin]; exact .inl rfl

/-- A thread becomes a zombie by the operation that ends it. -/
theorem ending_of_mem_zombies (h : s.Placed) (ht : t ∈ (s.act o).scheduler.zombies)
    (hnew : t ∉ s.zombies) : s.Ending o t := by
  by_cases hstart : ∃ size, o = .start size
  · obtain ⟨size, rfl⟩ := hstart
    simp [act, start] at ht
  · cases buries_act h fun size heq => hstart ⟨size, heq⟩ with
    | inl heq => exact absurd (heq ▸ ht) hnew
    | inr hended =>
        obtain ⟨u, hu, heq⟩ := hended
        rw [heq, List.mem_append, List.mem_singleton] at ht
        exact ht.resolve_left hnew ▸ hu

/-- The zombies stay where they are, in their order. -/
theorem zombies_after (h : s.Placed) (ops : List Operation)
    (hops : ∀ o ∈ ops, ∀ size, o ≠ .start size) : s.zombies <+: (s.after ops).zombies := by
  induction ops generalizing s with
  | nil => exact List.prefix_refl _
  | cons o ops ih =>
      have hrest := ih (h.act o) fun o' ho' => hops o' (List.mem_cons_of_mem o ho')
      cases buries_act h (hops o List.mem_cons_self) with
      | inl heq => exact heq ▸ hrest
      | inr hended =>
          obtain ⟨u, -, heq⟩ := hended
          rw [heq] at hrest
          exact (List.prefix_append _ _).trans hrest

end Scheduler

/-! ## calls that are not answered -/

/-- Whether the call is the last that its caller makes: it exits or, being a
thread, cancels itself. -/
def Call.leaves (thread : ThreadId) : Call → Bool
  | .exit _ => true
  | .cancel id => id = thread ∧ thread ≠ .nobody
  | _ => false

/-- The thread has called to leave. -/
def Transcript.HasLeft (τ : Transcript) (id : ThreadId) : Prop :=
  ∃ call, .called id call ∈ τ ∧ call.leaves id

theorem Call.exists_exitValue {call : Call} {id : ThreadId} (h : call.leaves id) :
    ∃ v, call.exitValue? id = some v := by
  cases call with
  | exit v => exact ⟨v, rfl⟩
  | cancel other =>
      have hself : other = id ∧ id ≠ .nobody := of_decide_eq_true h
      exact ⟨0, if_pos hself.1⟩
  | _ => contradiction

/-- What is answered late does not leave. -/
theorem Due.leaves_eq_false {call : Call} (h : Due ended (some call) reply) (id : ThreadId) :
    call.leaves id = false := by
  cases h with
  | done hgives => cases call <;> first | rfl | contradiction
  | joined _ => rfl

theorem Transcript.hasLeft_cons {τ : Transcript} {id : ThreadId} :
    HasLeft (m :: τ) id ↔ (∃ call, m = .called id call ∧ call.leaves id) ∨ τ.HasLeft id := by
  simp only [HasLeft, List.mem_cons, or_and_right, exists_or, eq_comm]

namespace Process

variable {τ earlier : Transcript} {p q : Process} {call : Call} {id : ThreadId} {m : Moment}

/-- A call that is answered at once does not leave. -/
theorem Run.leaves_perform (run : Run τ p) (hclient : p.control = .client told)
    (hreply : (p.perform call).control = .client reply) : call.leaves p.self = false := by
  rw [Bool.eq_false_iff]
  intro hleaves
  obtain ⟨-, ⟨hp, -⟩ | ⟨c, hp⟩⟩ := run.consistent.client hclient
  · -- code that is no thread can only leave by an exit
    rw [hp.self_eq] at hleaves
    cases call with
    | exit v => exact control_exit_ne p v hreply
    | _ => simp [Call.leaves] at hleaves
  · rw [hp.books.self_eq] at hleaves
    obtain ⟨v, hv⟩ := Call.exists_exitValue hleaves
    rw [hp.perform_of_exitValue hv] at hreply
    exact control_exit_ne p v hreply

theorem Run.leaves_of_answered (run : Run τ p) (h : τ.Answered id call reply earlier) :
    call.leaves id = false := by
  obtain ⟨σ, q, told, run', hclient, rfl, -, hreply⟩ | ⟨ended, hdue⟩ := run.answered_cases h
  · exact run'.leaves_perform hclient hreply
  · exact hdue.leaves_eq_false id

/-- A thread that is about to do or see something has no call to leave. -/
theorem Run.leaves_eq_false (run : Run τ p) (h : m :: earlier <:+ τ)
    (hcall : earlier.outstanding m.thread = some call) : call.leaves m.thread = false := by
  cases m with
  | called who made =>
      -- its code runs, so it has no call at all
      obtain ⟨q, reply, run', hclient, rfl⟩ := run.exists_of_called h
      exact nomatch (run'.outstanding_self hclient).symm.trans hcall
  | answered who reply => exact run.leaves_of_answered ⟨h, hcall⟩

/-- The call with which a thread has left stays its last one. -/
theorem Run.outstanding_of_hasLeft (run : Run τ p) (h : earlier <:+ τ)
    (hleft : earlier.HasLeft id) : ∃ call, earlier.outstanding id = some call ∧ call.leaves id := by
  induction earlier with
  | nil =>
      obtain ⟨call, hmem, -⟩ := hleft
      contradiction
  | cons m earlier ih =>
      have hsuffix : earlier <:+ τ := (List.suffix_cons m earlier).trans h
      cases Transcript.hasLeft_cons.mp hleft with
      | inl hnow =>
          obtain ⟨call, rfl, hleaves⟩ := hnow
          exact ⟨call, Transcript.outstanding_called_self .., hleaves⟩
      | inr hbefore =>
          obtain ⟨call, hcall, hleaves⟩ := ih hsuffix hbefore
          have hne : m.thread ≠ id := by
            rintro rfl
            simp [run.leaves_eq_false h hcall] at hleaves
          exact ⟨call, (Transcript.outstanding_cons_of_ne hne earlier).trans hcall, hleaves⟩

/-- Nothing is written of a thread after it has left. -/
theorem Run.not_hasLeft (run : Run τ p) (h : m :: earlier <:+ τ) : ¬ earlier.HasLeft m.thread := by
  intro hleft
  obtain ⟨call, hcall, hleaves⟩ :=
    run.outstanding_of_hasLeft ((List.suffix_cons m earlier).trans h) hleft
  simp [run.leaves_eq_false h hcall] at hleaves

/-- **Whose code runs has not ended.** -/
theorem Run.self_notMem_ends (run : Run τ p) (hover : p.isOver = false) :
    p.self ∉ τ.ends.map Prod.fst := by
  obtain ⟨hl, hp | ⟨c, hp⟩⟩ := run.consistent.books hover
  · rw [hl.ends, hp.scheduler]
    simp [Scheduler.ended]
  · intro hmem
    obtain ⟨⟨id, status⟩, hended, hid⟩ := List.mem_map.mp hmem
    obtain ⟨t, ht, rfl, -⟩ := hl.mem_ends_iff.mp hended
    exact hp.placed.ne_of_mem_zombies ht hp.mem_living (hp.self_eq.symm.trans hid.symm)

/-- Nothing is written of a thread after it was cancelled. -/
theorem Run.not_wasCancelled (run : Run τ p) (h : m :: earlier <:+ τ) :
    ¬ earlier.WasCancelled m.thread := by
  intro hcancelled
  obtain ⟨other, before, -, hanswered⟩ := hcancelled
  obtain ⟨τ', q, reply, run', hclient, hself, hsuffix⟩ := run.exists_of_moment h
  have hended := Transcript.mem_ends_cancelled.mpr ⟨other, before, hanswered⟩
  have hmem := (Transcript.ends_suffix hsuffix).subset hended
  exact run'.self_notMem_ends (isOver_of_client hclient) (hself ▸ List.mem_map_of_mem hmem)

/-- **To have ended is final.**

* After any history of a scheduler, and any further operations but a start, the
  zombies are where they were, as they were, and none of them is current or
  ready.
* A thread becomes a zombie by the operation that retires it while it is
  current, which leaves it done with that value, or by the one that cancels it
  while it is ready.
* In every run, nothing is done by the code of a thread, nor does it see
  anything, after it has called to leave or was cancelled.
* While the process goes on, whose code runs is none of those that have
  ended. -/
theorem termination_is_final (run : Run τ p) :
    (∀ history ops, (∀ o ∈ ops, ∀ size, o ≠ .start size) →
      let s := ({} : Scheduler).after history
      s.zombies <+: (s.after ops).zombies ∧
        ∀ t ∈ s.zombies, ∀ u ∈ (s.after ops).living, u.id ≠ t.id) ∧
    (∀ history o,
      let s := ({} : Scheduler).after history
      ∀ t ∈ (s.act o).scheduler.zombies, t ∉ s.zombies →
        (∃ v c, o = .retire v ∧ s.current = some c ∧ t = c.finish v ∧
          t.exitStatus = some (.returned v)) ∨
        ∃ u ∈ s.ready, o = .cancel u.id ∧ t = u.cancel ∧ t.exitStatus = some .cancelled) ∧
    (∀ (m : Moment) (earlier : Transcript), m :: earlier <:+ τ →
      ¬ earlier.HasLeft m.thread ∧ ¬ earlier.WasCancelled m.thread) ∧
    ∀ id ∈ τ.ends.map Prod.fst, ∀ q, p.Later q → q.isOver = false → q.self ≠ id := by
  refine ⟨?_, ?_, ?_, ?_⟩
  · intro history ops hops s
    have h : s.Placed := Scheduler.placed_empty.after history
    have hstay := Scheduler.zombies_after h ops hops
    exact ⟨hstay, fun t ht u hu => (h.after ops).ne_of_mem_zombies (hstay.subset ht) hu⟩
  · intro history o s t ht hnew
    have h : s.Placed := Scheduler.placed_empty.after history
    cases Scheduler.ending_of_mem_zombies h ht hnew with
    | @finished c v hc ho => exact .inl ⟨v, c, ho, hc, rfl, c.exitStatus_finish⟩
    | @cancelled u hu ho => exact .inr ⟨u, hu, ho, rfl, u.exitStatus_cancel⟩
  · intro m earlier h
    exact ⟨run.not_hasLeft h, run.not_wasCancelled h⟩
  · intro id hid q hlater hover hself
    obtain ⟨τ', run', hsuffix⟩ := run.extends_later hlater
    have hmem := ((Transcript.ends_suffix hsuffix).map Prod.fst).subset hid
    exact run'.self_notMem_ends hover (hself ▸ hmem)

/-- The third thread cancels the second one, which has yielded, and exits.
Neither runs again. -/
theorem two_endings_are_final :
    let moves : List Move :=
      [.call (.init (.ofMicros 1000)), .call (.create ⟨0, .native⟩ 5),
        .call (.create ⟨0, .foreign⟩ 6), .call .yield, .turn, .call .yield, .turn,
        .call (.cancel ⟨2⟩), .call (.exit 7), .turn]
    ∃ τ p, ({} : Process).follow [] moves = some (τ, p) ∧ p.self = .initial ∧
      ∀ q, p.Later q → q.isOver = false → q.self ≠ ⟨2⟩ ∧ q.self ≠ ⟨3⟩ := by
  intro moves
  obtain ⟨τ, p, hfollow⟩ : ∃ τ p, ({} : Process).follow [] moves = some (τ, p) := ⟨_, _, rfl⟩
  obtain ⟨hself, hends⟩ : p.self = .initial ∧ τ.ends.map Prod.fst = [⟨3⟩, ⟨2⟩] := by
    obtain ⟨rfl, rfl⟩ := Prod.mk.inj (Option.some.inj hfollow)
    exact ⟨rfl, rfl⟩
  have h := (termination_is_final (Run.start.follow hfollow)).2.2.2
  rw [hends] at h
  refine ⟨τ, p, hfollow, hself, ?_⟩
  intro q hlater hover
  exact ⟨h ⟨2⟩ (by simp) q hlater hover, h ⟨3⟩ (by simp) q hlater hover⟩

end Process

end GreenThreads
