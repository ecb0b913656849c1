import GreenThreads.Proofs.Ledger

/-!
# GreenThreads.Proofs.Underway

A call, from the moment it is made until it returns.

* `Underway p call q` — the running thread of `p` has made `call`, the process
  has come to `q`, and the code of that thread has not run in between.  Other
  threads may have run meanwhile, and done whatever they like.
* `Returns p call reply q` — the code of that thread runs again in `q`, and
  sees `reply`.

A call that is answered at once gets one of the replies that it `admits`.

What a step never takes back is here as well: the thread on the host's stack
stays who it is, and identities are only ever given out.
-/

namespace GreenThreads

/-- The kinds of reply that a call has. -/
def Call.admits : Call → Reply → Bool
  | .init _, .done | .init _, .refused _ | .init _, .overflowed _ => true
  | .create .., .thread _ | .create .., .refused _ | .create .., .overflowed _ => true
  | .join _, .status _ | .join _, .refused _ => true
  | .cancel _, .done | .cancel _, .refused _ => true
  | .yield, .done | .debug, .done | .setErrno _, .done => true
  | .release _, .done | .unmask, .done | .raise, .done => true
  | .currentId, .thread _ | .isInitialised, .flag _ | .liveStacks, .count _ => true
  | .mask, .guard _ | .arm _, .timer _ | .arm _, .hostFailed _ => true
  | _, _ => false

namespace Process

/-! ## calls that are answered at once -/

section

variable {p : Process} {reply : Reply}

theorem control_load_ne (p : Process) (id : ThreadId) : (p.load id).control ≠ .client reply := by
  unfold load
  split <;> simp [stop]

/-- A thread that hands the processor over is told nothing. -/
theorem client_of_handOver (h : (p.handOver r stay).control = .client reply) :
    ∃ s, p.handOver r stay = stay { p with scheduler := s } := by
  unfold handOver at h ⊢
  split at h
  · exact ⟨_, rfl⟩
  · exact absurd h (control_load_ne _ _)

theorem reply_of_answerOpen {told : Reply} (h : (p.answerOpen told).control = .client reply) :
    reply = told := by
  unfold answerOpen at h
  split at h
  · unfold deliver at h
    split at h
    · obtain ⟨s, hs⟩ := client_of_handOver h
      rw [hs] at h
      exact (Control.client.inj h).symm
    · contradiction
  · exact (Control.client.inj h).symm

theorem control_awaitOthers_ne (p : Process) (v : Word) :
    (p.awaitOthers v).control ≠ .client reply := by
  intro h
  unfold awaitOthers at h
  split at h
  · contradiction
  · obtain ⟨s, hs⟩ := client_of_handOver h
    rw [hs] at h
    contradiction

theorem control_exit_ne (p : Process) (v : Word) : (p.exit v).control ≠ .client reply := by
  intro h
  unfold exit at h
  dsimp only at h
  split at h
  · contradiction
  · split at h
    · exact control_awaitOthers_ne _ _ h
    · split at h
      · contradiction
      · exact control_load_ne _ _ h

theorem admits_awaitEnd {target : ThreadId} {guard : Guard}
    (h : (p.awaitEnd target guard).control = .client reply) :
    (Call.join target).admits reply := by
  unfold awaitEnd at h
  split at h
  · obtain ⟨s, hs⟩ := client_of_handOver h
    rw [hs] at h
    contradiction
  · split at h <;> rw [reply_of_answerOpen h] <;> rfl

theorem admits_init {config : Config} (h : (p.init config).control = .client reply) :
    (Call.init config).admits reply := by
  unfold init at h
  dsimp only at h
  split at h
  · rw [reply_of_answerOpen h]; rfl
  · split at h
    · rw [reply_of_answerOpen h]; rfl
    · split at h
      · rw [reply_of_answerOpen h]; rfl
      · split at h
        · contradiction
        · rw [reply_of_answerOpen h]; rfl

theorem admits_create (h : (p.create routine arg).control = .client reply) :
    (Call.create routine arg).admits reply := by
  unfold create at h
  split at h
  · rw [← Control.client.inj h]; rfl
  · dsimp only at h
    split at h
    · rw [reply_of_answerOpen h]; rfl
    · contradiction
    · rw [reply_of_answerOpen h]; rfl

theorem admits_join {id : ThreadId} (h : (p.join id).control = .client reply) :
    (Call.join id).admits reply := by
  unfold join at h
  split at h
  · rw [← Control.client.inj h]; rfl
  · dsimp only at h
    split at h
    · rw [reply_of_answerOpen h]; rfl
    · exact admits_awaitEnd h

theorem admits_cancel {id : ThreadId} (h : (p.cancel id).control = .client reply) :
    (Call.cancel id).admits reply := by
  unfold cancel at h
  split at h
  · rw [← Control.client.inj h]; rfl
  · split at h
    · exact absurd h (control_exit_ne _ _)
    · dsimp only at h
      split at h
      · rw [reply_of_answerOpen h]; rfl
      · rw [reply_of_answerOpen h]; rfl

/-- **A call that is answered at once is answered in kind.** -/
theorem admits_perform (call : Call) (h : (p.perform call).control = .client reply) :
    call.admits reply := by
  cases call with
  | init config => exact admits_init h
  | create routine arg => exact admits_create h
  | join id => exact admits_join h
  | cancel id => exact admits_cancel h
  | exit value => exact absurd h (control_exit_ne _ _)
  | yield =>
      have hyield : p.yield.control = .client reply := h
      unfold yield at hyield
      obtain ⟨s, hs⟩ := client_of_handOver hyield
      rw [hs] at hyield
      rw [reply_of_answerOpen hyield]; rfl
  | currentId | debug | release | unmask | raise => rw [reply_of_answerOpen h]; rfl
  | isInitialised | liveStacks | mask | setErrno => rw [← Control.client.inj h]; rfl
  | arm quantum =>
      have harm : (p.arm quantum).control = .client reply := h
      unfold arm at harm
      split at harm <;> rw [← Control.client.inj harm] <;> rfl
  | panic | abort | quit => contradiction

end

/-! ## calls and their returns -/

/-- The code of the thread holds the processor. -/
def Runs (p : Process) (id : ThreadId) : Prop := p.self = id ∧ ∃ reply, p.control = .client reply

instance (p : Process) (id : ThreadId) : Decidable (p.Runs id) :=
  match h : p.control with
  | .client reply => decidable_of_iff (p.self = id) ⟨fun hid => ⟨hid, reply, h⟩, And.left⟩
  | .arriving _ | .waiting _ | .over _ => .isFalse fun hruns => by simp [Runs, h] at hruns

/-- The running thread of `p` has made `call`, and its code has not run
since. -/
inductive Underway (p : Process) (call : Call) : Process → Prop where
  | called (h : p.control = .client reply) : Underway p call (p.perform call)
  | step (h : Underway p call q) (hruns : ¬ q.Runs p.self) (hstep : q.Step move r) :
      Underway p call r

/-- The call of the running thread of `p` returns `reply` in `q`. -/
structure Returns (p : Process) (call : Call) (reply : Reply) (q : Process) : Prop where
  underway : p.Underway call q
  self : q.self = p.self
  control : q.control = .client reply

variable {τ : Transcript} {p q : Process} {c : Thread} {move : Move}

theorem Underway.client {call : Call} (h : p.Underway call q) :
    ∃ reply, p.control = .client reply := by
  induction h with
  | called hclient => exact ⟨_, hclient⟩
  | step _ _ _ ih => exact ih

theorem Underway.run {call : Call} (h : p.Underway call q) (run : Run τ p) : ∃ τ', Run τ' q := by
  induction h with
  | called hclient => exact ⟨_, run.step (.call hclient call)⟩
  | step _ _ hstep ih =>
      obtain ⟨τ', run'⟩ := ih
      exact ⟨_, run'.step hstep⟩

/-! ## what stays -/

theorem exists_outcome_of_isOver (h : p.isOver = true) :
    ∃ outcome, p.control = .over outcome := by
  unfold isOver at h
  split at h
  · exact ⟨_, by assumption⟩
  · contradiction

theorem isOver_of_client (h : p.control = .client reply) : p.isOver = false := by
  rw [isOver, h]

theorem Proceeds.host_eq {call : Option Call} (h : p.Proceeds c call q) (hover : q.isOver = false) :
    q.host = p.host := by
  cases h with
  | answered _ hq => exact hq.books.host
  | paused _ _ _ hq => exact hq.host
  | stopped hstopped => simp [isOver, hstopped] at hover

theorem CallEffect.host_eq {call : Call} (h : p.CallEffect c call q) (hover : q.isOver = false) :
    q.host = p.host := by
  cases h with
  | answered _ _ hq => exact hq.books.host
  | proceeds _ hq => exact hq.host_eq hover
  | creates _ hq => exact hq.host
  | cancels _ _ hq => exact hq.host
  | retires _ _ hq => exact hq.host
  | stopped hstopped => simp [isOver, hstopped] at hover

theorem Proceeds.nextId_eq {call : Option Call} (hp : p.Books c) (h : p.Proceeds c call q)
    (hover : q.isOver = false) : q.scheduler.nextId = p.scheduler.nextId := by
  cases h with
  | answered _ hq => rw [hq.books.scheduler]; rfl
  | @paused r n s _ _ _ hq =>
      have hbooks : (p.withCurrent (c.pausedAt r)).Books (c.pausedAt r) :=
        hp.setCurrent rfl rfl rfl
      obtain ⟨rest, -, heq⟩ := hbooks.exists_of_handsOver hq
      rw [heq]
      rfl
  | stopped hstopped => simp [isOver, hstopped] at hover

theorem CallEffect.nextId_le {call : Call} (hp : p.Idle c) (h : p.CallEffect c call q)
    (hover : q.isOver = false) : p.scheduler.nextId.val ≤ q.scheduler.nextId.val := by
  cases h with
  | answered _ _ hq => exact Nat.le_of_eq (by rw [hq.books.scheduler])
  | proceeds _ hq => exact Nat.le_of_eq (by rw [hq.nextId_eq hp.books hover])
  | creates _ hq => rw [hq.scheduler]; exact Nat.le_succ _
  | cancels _ _ hq =>
      obtain ⟨_, _, _, -, -, -, heq⟩ := Scheduler.exists_of_cancel hp.books.placed hq.scheduler
      exact Nat.le_of_eq (by rw [heq])
  | retires _ _ hq =>
      obtain ⟨rest, -, heq⟩ := hp.books.exists_of_retires hq
      exact Nat.le_of_eq (by rw [heq])
  | stopped hstopped => simp [isOver, hstopped] at hover

theorem EarlyEffect.nextId_le {call : Call} (h : p.EarlyEffect call q) (hover : q.isOver = false) :
    p.scheduler.nextId.val ≤ q.scheduler.nextId.val := by
  cases h with
  | answered _ hq => exact Nat.le_of_eq (by rw [hq.books.scheduler])
  | overflowed _ _ hq => rw [hq]; exact Nat.le_succ _
  | starts _ hq => rw [hq.scheduler]; exact Nat.le_succ _
  | stopped hstopped => simp [isOver, hstopped] at hover

/-- No identity is given out twice. -/
theorem Run.nextId_le (run : Run τ p) (h : p.Step move q) (hover : q.isOver = false) :
    p.scheduler.nextId.val ≤ q.scheduler.nextId.val := by
  cases h with
  | call hclient call =>
      obtain ⟨-, ⟨hp, hquiet⟩ | ⟨c, hp⟩⟩ := run.consistent.client hclient
      · exact (hp.performs hquiet call).nextId_le hover
      · exact (hp.performs call).nextId_le hp hover
  | turn hsettled =>
      obtain ⟨-, c, hp, hq⟩ := run.consistent.turn hsettled
      exact Nat.le_of_eq (congrArg ThreadId.val (hq.nextId_eq hp.reap hover)).symm
  | listen => exact Nat.le_refl _

/-- The thread on the host's stack does not change. -/
theorem Run.host_eq (run : Run τ p) (h : p.Step move q) (hinit : p.isInitialised = true)
    (hover : q.isOver = false) : q.host = p.host := by
  cases h with
  | call hclient call =>
      obtain ⟨-, ⟨hp, -⟩ | ⟨c, hp⟩⟩ := run.consistent.client hclient
      · simp [hp.isInitialised_eq] at hinit
      · exact (hp.performs call).host_eq hover
  | turn hsettled =>
      obtain ⟨-, c, -, hq⟩ := run.consistent.turn hsettled
      exact hq.host_eq hover
  | listen => rfl

/-- A process that is over stays so. -/
theorem Step.isOver_eq_false (h : p.Step move q) (hover : q.isOver = false) :
    p.isOver = false := by
  cases h with
  | call hclient => exact isOver_of_client hclient
  | turn hsettled =>
      unfold isSettled at hsettled
      unfold isOver
      split <;> simp_all
  | listen => exact hover

/-- Whose code runs has an identity that was given out, or none. -/
theorem Run.self_lt (run : Run τ p) (hover : p.isOver = false) :
    p.self.val < p.scheduler.nextId.val := by
  obtain ⟨-, hp | ⟨c, hp⟩⟩ := run.consistent.books hover
  · rw [hp.self_eq]
    exact hp.nextId_pos
  · rw [hp.self_eq]
    exact hp.bounds.2

/-- A caller keeps its identity while its call is underway. -/
theorem Underway.self_lt {call : Call} (h : p.Underway call q) (run : Run τ p)
    (hover : q.isOver = false) : p.self.val < q.scheduler.nextId.val := by
  induction h with
  | called hclient =>
      have hle := run.nextId_le (.call hclient call) hover
      exact Nat.lt_of_lt_of_le (run.self_lt (isOver_of_client hclient)) hle
  | @step q r move h _ hstep ih =>
      obtain ⟨τ', run'⟩ := h.run run
      have hle := run'.nextId_le hstep hover
      exact Nat.lt_of_lt_of_le (ih (hstep.isOver_eq_false hover)) hle

end Process

end GreenThreads
