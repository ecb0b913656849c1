import GreenThreads.Proofs.Underway

/-!
# GreenThreads.Proofs.Masks

The mask of the preemption signal belongs to the thread whose code runs.

There is one mask, and every switch replaces it.  `maskOf? p id` is the mask
under which the code of the thread `id` goes on, wherever that thread is now:
its code runs, it is about to run, or it is switched out.

* What other threads do leaves it alone (`Run.maskOf?_of_ne`).
* What the thread does itself leaves it alone too, unless it makes a call that
  is there to change it (`Idle.maskOf?_perform`, `Books.maskOf?_advance`).

So a call returns under the mask that `Call.maskAfter` says.  The main
statement is `mask_belongs_to_caller`.
-/

namespace GreenThreads

/-- The mask under which the code of a thread goes on that is resumed there.  A
routine begins with the mask open, and a signal only arrives where it is open.
The code of a thread that waits to end the process never goes on. -/
def Resumption.mask? : Resumption → Option Bool
  | .begin | .preempted .. => some false
  | .yielding guard | .joining _ guard => some guard.wasMasked
  | .exiting _ => none

/-- The mask of the caller once its call has returned, when it was `masked`
before. -/
def Call.maskAfter (masked : Bool) : Call → Bool
  | .mask => true
  | .unmask => false
  | .release guard => guard.wasMasked && masked
  | _ => masked

/-- The calls with which client code ends the process on the spot. -/
def Call.isFatal : Call → Bool
  | .panic | .abort | .quit _ => true
  | _ => false

@[simp] theorem PreemptSignal.masked_restore (guard : Guard) (s : PreemptSignal) :
    (s.restore guard).masked = (guard.wasMasked && s.masked) := by
  cases hwas : guard.wasMasked <;> simp [restore, unblock, hwas]

theorem PreemptSignal.masked_of_arrives {s : PreemptSignal} (h : s.arrives = true) :
    s.masked = false := by
  simp_all [arrives]

namespace Process

/-- The mask under which the code of a thread goes on that is switched out. -/
def savedMask? (p : Process) (id : ThreadId) : Option Bool :=
  (p.saved.lookup id).bind fun s => s.resumption.mask?

/-- The mask under which the code of a thread goes on, if it ever does. -/
def maskOf? (p : Process) (id : ThreadId) : Option Bool :=
  match p.control with
  | .client _ => if id = p.self then some p.signal.masked else p.savedMask? id
  | .arriving r | .waiting r => if id = p.self then r.mask? else p.savedMask? id
  | .over _ => none

section

variable {p : Process} {reply : Reply} {id : ThreadId}

theorem maskOf?_client (h : p.control = .client reply) (hself : p.self = id) :
    p.maskOf? id = some p.signal.masked := by
  simp [maskOf?, h, hself]

theorem maskOf?_of_over (h : p.control = .over outcome) (id : ThreadId) : p.maskOf? id = none := by
  rw [maskOf?, h]

theorem maskOf?_of_isOver (h : p.isOver = true) (id : ThreadId) : p.maskOf? id = none := by
  unfold isOver at h
  split at h
  · next hover => exact maskOf?_of_over hover id
  · contradiction

theorem isOver_of_maskOf? (h : p.maskOf? id = some m) : p.isOver = false := by
  rw [← Bool.not_eq_true]
  intro hover
  rw [maskOf?_of_isOver hover] at h
  contradiction

theorem maskOf?_arriving (h : p.control = .arriving r) (id : ThreadId) :
    p.maskOf? id = if id = p.self then r.mask? else p.savedMask? id := by
  rw [maskOf?, h]

theorem maskOf?_waiting (h : p.control = .waiting r) (hself : p.self = id) :
    p.maskOf? id = r.mask? := by
  simp [maskOf?, h, hself]

theorem savedMask?_of_lookup (h : p.saved.lookup id = some s) :
    p.savedMask? id = s.resumption.mask? := by
  rw [savedMask?, h]
  rfl

theorem maskOf?_eq_savedMask? (hover : p.isOver = false) (h : id ≠ p.self) :
    p.maskOf? id = p.savedMask? id := by
  unfold maskOf?
  split
  · exact if_neg h
  · exact if_neg h
  · exact if_neg h
  · next hcontrol => simp [isOver, hcontrol] at hover

theorem maskOf?_of_ne_self (h : id ≠ p.self) (hm : p.maskOf? id = some m) :
    p.savedMask? id = some m := by
  rw [← maskOf?_eq_savedMask? (isOver_of_maskOf? hm) h, hm]

end

/-! ## what others do -/

namespace Books

variable {p q : Process} {c n : Thread} {r : Resumption} {s : Saved} {id : ThreadId}

/-- The thread that has been switched to is the one whose code goes on. -/
theorem self_of_loaded (h : p.Books c) (hfirst : p.scheduler.ready.head? = some n)
    (hloaded : p.saved.lookup n.id = some s) (hstrand : q.strand = s.strand)
    (hhost : q.host = p.host) : q.self = n.id := by
  obtain ⟨s', hs', hown, -, -⟩ := h.saved n (List.mem_of_head? hfirst)
  obtain rfl : s' = s := Option.some.inj (hs'.symm.trans hloaded)
  exact self_of_strand (by rw [hstrand, hown, strandOf_congr hhost])

/-- Whoever hands the processor over takes its mask along, and all the others
find theirs again where they go on. -/
theorem maskOf?_handsOver (h : p.Books c) (hq : p.HandsOver r n s q) (id : ThreadId) :
    q.maskOf? id = if id = c.id then r.mask? else p.savedMask? id := by
  have hself := h.self_of_loaded hq.first hq.loaded hq.strand hq.host
  have hne : n.id ≠ c.id := (h.placed.current_ne h.current (List.mem_of_head? hq.first)).symm
  rw [maskOf?_arriving hq.control, hself]
  -- the thread is switched to, has just been switched out, or neither
  by_cases hn : id = n.id
  · subst hn
    rw [if_pos rfl, if_neg hne, savedMask?_of_lookup hq.loaded]
  · simp only [if_neg hn, savedMask?, hq.saved id, h.currentId_eq]
    by_cases hc : id = c.id
    · rw [if_pos hc, if_pos hc]
      rfl
    · rw [if_neg hc, if_neg hc]

theorem maskOf?_retires (h : p.Books c) (hq : p.Retires v n s q) (id : ThreadId) :
    q.maskOf? id = p.savedMask? id := by
  rw [maskOf?_arriving hq.control, h.self_of_loaded hq.first hq.loaded hq.strand hq.host]
  by_cases hn : id = n.id
  · subst hn
    rw [if_pos rfl, savedMask?_of_lookup hq.loaded]
  · simp only [if_neg hn, savedMask?, hq.saved id]

end Books

variable {τ : Transcript} {p q : Process} {c : Thread} {id : ThreadId}

/-- A thread that goes on leaves the masks of the others alone. -/
theorem Proceeds.maskOf?_of_ne {call : Option Call} (hp : p.Books c) (h : p.Proceeds c call q)
    (hid : id ≠ c.id) (hm : q.maskOf? id = some m) : p.savedMask? id = some m := by
  cases h with
  | answered _ hq =>
      have hactive : (p.withCurrent c.active).Books c.active := hp.setCurrent rfl rfl rfl
      have hself : q.self = c.id := (hactive.congr hq.books).self_eq
      have hsaved := maskOf?_of_ne_self (hself ▸ hid) hm
      rwa [savedMask?, hq.books.saved] at hsaved
  | @paused r n s _ _ _ hq =>
      have hbooks : (p.withCurrent (c.pausedAt r)).Books (c.pausedAt r) :=
        hp.setCurrent rfl rfl rfl
      have hid' : id ≠ (c.pausedAt r).id := hid
      rwa [hbooks.maskOf?_handsOver hq, if_neg hid'] at hm
  | stopped hover => simp [maskOf?_of_over hover] at hm

/-- A call leaves the masks of all but its caller alone. -/
theorem CallEffect.maskOf?_of_ne {call : Call} (hp : p.Idle c) (h : p.CallEffect c call q)
    (hid : id ≠ c.id) (hnext : id ≠ p.scheduler.nextId) (hm : q.maskOf? id = some m) :
    p.savedMask? id = some m := by
  cases h with
  | answered _ _ hq =>
      have hself : q.self = c.id := (hp.books.congr hq.books).self_eq
      have hsaved := maskOf?_of_ne_self (hself ▸ hid) hm
      rwa [savedMask?, hq.books.saved] at hsaved
  | proceeds _ hq => exact hq.maskOf?_of_ne hp.books hid hm
  | creates _ hq =>
      have hself : q.self = c.id := (hp.books.creates hq).self_eq
      have hsaved := maskOf?_of_ne_self (hself ▸ hid) hm
      rwa [savedMask?, hq.saved, if_neg hnext] at hsaved
  | @cancels freed other _ _ hq =>
      have hself : q.self = c.id := (hp.books.cancels hq).self_eq
      have hsaved := maskOf?_of_ne_self (hself ▸ hid) hm
      rw [savedMask?, hq.saved] at hsaved
      by_cases hother : id = other
      · rw [if_pos hother] at hsaved
        contradiction
      · rwa [if_neg hother] at hsaved
  | retires _ _ hq => rwa [hp.books.maskOf?_retires hq] at hm
  | stopped hover => simp [maskOf?_of_over hover] at hm

/-- Before the start there are no other threads. -/
theorem EarlyEffect.maskOf?_of_ne {call : Call} (hp : p.Unstarted) (h : p.EarlyEffect call q)
    (hid : id ≠ .nobody) (hnext : id ≠ p.scheduler.nextId) : q.maskOf? id = none := by
  have hnone : ∀ q : Process, q.saved = p.saved → id ≠ q.self → q.maskOf? id = none := by
    intro q hsaved hself
    cases hm : q.maskOf? id with
    | none => rfl
    | some m =>
        have hold := maskOf?_of_ne_self hself hm
        simp [savedMask?, hsaved, hp.saved] at hold
  cases h with
  | answered _ hq => exact hnone q hq.books.saved ((hp.congr hq.books).self_eq.symm ▸ hid)
  | overflowed _ _ hq =>
      subst hq
      exact hnone _ rfl ((hp.allocateId _).self_eq.symm ▸ hid)
  | starts _ hq => exact hnone q hq.saved ((hp.starts hq).self_eq.symm ▸ hnext)
  | stopped hover => exact maskOf?_of_over hover id

/-! ## what a thread does itself -/

namespace Books

variable {r : Resumption}

theorem maskOf?_handOver (h : p.Books c) (hmasked : p.signal.masked = true)
    (hstay : p.scheduler.ready = [] → (stay p).maskOf? c.id = r.mask?) :
    (p.handOver r stay).maskOf? c.id = r.mask? := by
  cases hr : p.scheduler.ready with
  | nil =>
      rw [handOver_nil hr]
      exact hstay hr
  | cons n rest =>
      obtain ⟨s, hs⟩ := h.handsOver_of_ready hmasked hr
      rw [h.maskOf?_handsOver hs, if_pos rfl]

/-- A signal only arrives where the mask is open, and leaves it open. -/
theorem maskOf?_answerOpen (h : p.Books c) (reply : Reply) :
    (p.answerOpen reply).maskOf? c.id = some p.signal.masked := by
  by_cases harrives : p.signal.arrives = true
  · have hsame : p.SameBooks { p with signal := p.signal.accept } := sameBooks_with ..
    rw [answerOpen, if_pos harrives, deliver, if_pos h.isInitialised,
      PreemptSignal.masked_of_arrives harrives]
    exact (h.congr hsame).maskOf?_handOver rfl fun _ => maskOf?_client rfl h.self_eq
  · rw [answerOpen, if_neg harrives]
    exact maskOf?_client rfl h.self_eq

theorem maskOf?_leave (h : p.Books c) (guard : Guard) (reply : Reply) :
    (p.leave guard reply).maskOf? c.id = some (guard.wasMasked && p.signal.masked) := by
  rw [leave, (h.congr (sameBooks_with ..)).maskOf?_answerOpen, PreemptSignal.masked_restore]

/-- The end of a critical section. -/
theorem maskOf?_leave_of_masked (h : p.Books c) (hmasked : p.signal.masked = true) (guard : Guard)
    (reply : Reply) : (p.leave guard reply).maskOf? c.id = some guard.wasMasked := by
  rw [h.maskOf?_leave, hmasked, Bool.and_true]

theorem maskOf?_unblock (h : p.Books c) (reply : Reply) :
    (p.unblock reply).maskOf? c.id = some false :=
  (h.congr (sameBooks_with ..)).maskOf?_answerOpen reply

/-- A join keeps its guard for as long as it waits. -/
theorem maskOf?_awaitEnd (h : p.Books c) (hmasked : p.signal.masked = true) (target : ThreadId)
    (guard : Guard) : (p.awaitEnd target guard).maskOf? c.id = some guard.wasMasked := by
  unfold awaitEnd
  split
  · exact h.maskOf?_handOver (r := .joining target guard) hmasked fun _ =>
      maskOf?_waiting rfl h.self_eq
  · have hcleared : { p with scheduler := p.scheduler.setJoining .nobody }.Books
        { c with joining := .nobody } := by
      rw [Scheduler.setJoining_eq h.current]
      exact h.setCurrent rfl rfl rfl
    have hend := p.scheduler.endJoin_snd target
    split
    · next e s heq =>
        obtain rfl : s = p.scheduler.setJoining .nobody := by rw [← hend, heq]
        exact hcleared.maskOf?_leave_of_masked hmasked guard _
    · next status s heq =>
        obtain rfl : s = p.scheduler.setJoining .nobody := by rw [← hend, heq]
        exact (hcleared.congr (sameBooks_with ..)).maskOf?_leave_of_masked hmasked guard _

/-- The initial thread never comes back from its exit. -/
theorem maskOf?_awaitOthers (h : p.Books c) (hmasked : p.signal.masked = true) (v : Word) :
    (p.awaitOthers v).maskOf? c.id = none := by
  unfold awaitOthers
  split
  · rfl
  · exact h.maskOf?_handOver (r := .exiting v) hmasked fun _ => maskOf?_waiting rfl h.self_eq

theorem maskOf?_resume (h : p.Books c) (hmasked : p.signal.masked = true)
    (hgoes : c.GoesOn p.scheduler.ids r) : (p.resume r).maskOf? c.id = r.mask? := by
  cases r with
  | begin =>
      obtain ⟨routine, hroutine⟩ := Option.isSome_iff_exists.mp (hgoes.routine.mpr rfl)
      have heq := h.beginRoutine_eq hroutine
      have hbegun : (p.withCurrent { c with routine := none }).Books { c with routine := none } :=
        h.setCurrent rfl rfl rfl
      rw [resume, heq]
      exact hbegun.maskOf?_unblock _
  | yielding guard => exact h.maskOf?_leave_of_masked hmasked guard .done
  | joining target guard => exact h.maskOf?_awaitEnd hmasked target guard
  | exiting value => exact h.maskOf?_awaitOthers hmasked value
  | preempted errno reply =>
      have hrestored : p.SameBooks { p with errno } := sameBooks_with ..
      exact (h.congr hrestored).maskOf?_unblock reply

/-- A thread that goes on does so under its own mask. -/
theorem maskOf?_advance (h : p.Books c) (hcontrol : p.control = .arriving r)
    (hmasked : p.signal.masked = true) (hgoes : c.GoesOn p.scheduler.ids r) :
    p.advance.maskOf? c.id = p.maskOf? c.id := by
  rw [maskOf?_arriving hcontrol, if_pos h.self_eq.symm, advance, hcontrol]
  exact h.reap.maskOf?_resume hmasked hgoes

end Books

namespace Idle

theorem maskOf?_leave {q : Process} (h : p.Idle c) (hsame : p.SameBooks q)
    (hsignal : q.signal = p.signal.block) (reply : Reply) :
    (q.leave p.signal.guard reply).maskOf? c.id = some p.signal.masked :=
  (h.books.congr hsame).maskOf?_leave_of_masked (congrArg PreemptSignal.masked hsignal) _ _

theorem maskOf?_create (h : p.Idle c) (routine : Routine) (arg : Word) :
    (p.create routine arg).maskOf? c.id = some p.signal.masked ∨
      ∃ e, p.create routine arg = p.block.die (.mapStack e) := by
  obtain ⟨stack, hcreates, hsignal⟩ | ⟨cause, hq⟩ | hdies := h.create_cases routine arg
  · rw [← hsignal]
    exact .inl (maskOf?_client hcreates.control (h.books.creates hcreates).self_eq)
  · rw [hq]
    exact .inl (h.maskOf?_leave p.sameBooks_block rfl _)
  · exact .inr hdies

theorem maskOf?_join (h : p.Idle c) (id : ThreadId) :
    (p.join id).maskOf? c.id = some p.signal.masked := by
  cases hbegin : p.scheduler.beginJoin id with
  | error e =>
      rw [h.join_of_error hbegin]
      exact h.maskOf?_leave p.sameBooks_block rfl _
  | ok s =>
      rw [h.join_eq hbegin]
      exact (h.books_joining id _).maskOf?_awaitEnd rfl id _

theorem maskOf?_cancel (h : p.Idle c) (hid : id ≠ c.id) :
    (p.cancel id).maskOf? c.id = some p.signal.masked := by
  cases hcancel : p.scheduler.cancel id with
  | error e =>
      rw [h.cancel_of_error hid hcancel]
      exact h.maskOf?_leave p.sameBooks_block rfl _
  | ok result =>
      obtain ⟨hq, hsignal⟩ := h.cancels_cancel hid hcancel
      rw [← hsignal]
      exact maskOf?_client hq.control (h.books.cancels hq).self_eq

theorem maskOf?_yield (h : p.Idle c) : p.yield.maskOf? c.id = some p.signal.masked :=
  (h.books.congr p.sameBooks_block).maskOf?_handOver (r := .yielding p.signal.guard) rfl
    fun _ => h.maskOf?_leave p.sameBooks_block rfl _

/-- **What a call does to the mask of its caller**, whenever the caller goes on
after it. -/
theorem maskOf?_perform (h : p.Idle c) (call : Call) (hexit : call.exitValue? c.id = none)
    (hfatal : call.isFatal = false) :
    (p.perform call).maskOf? c.id = some (call.maskAfter p.signal.masked) ∨
      ∃ e, p.perform call = p.block.die (.mapStack e) := by
  cases call with
  | create routine arg => exact h.maskOf?_create routine arg
  | init config =>
      rw [perform, h.init_eq]
      exact .inl (h.maskOf?_leave p.sameBooks_block rfl _)
  | join id => exact .inl (h.maskOf?_join id)
  | cancel id => exact .inl (h.maskOf?_cancel (by simpa [Call.exitValue?] using hexit))
  | yield => exact .inl h.maskOf?_yield
  | currentId => exact .inl (h.maskOf?_leave p.sameBooks_block rfl _)
  | debug =>
      have hnoted := foldl_note p.block p.scheduler.notices
      refine .inl (h.maskOf?_leave ?_ ?_ _)
      · rw [hnoted]; exact sameBooks_with ..
      · rw [hnoted]; rfl
  | release guard => exact .inl (h.books.maskOf?_leave guard .done)
  | unmask => exact .inl (h.books.maskOf?_unblock .done)
  | raise => exact .inl ((h.books.congr (sameBooks_with ..)).maskOf?_answerOpen .done)
  | isInitialised | liveStacks | mask | setErrno =>
      exact .inl (maskOf?_client rfl h.books.self_eq)
  | arm quantum =>
      rw [perform, arm]
      split <;> exact .inl (maskOf?_client rfl h.books.self_eq)
  | exit | panic | abort | quit => contradiction

end Idle

/-! ## before the start -/

namespace Unstarted

theorem masked_eq (h : p.Unstarted) (hclient : p.control = .client reply)
    (hm : p.maskOf? id = some m) : m = p.signal.masked := by
  by_cases hid : id = p.self
  · rw [maskOf?_client hclient hid.symm] at hm
    exact (Option.some.inj hm).symm
  · have hsaved := maskOf?_of_ne_self hid hm
    simp [savedMask?, h.saved] at hsaved

theorem masked_answer (h : p.Unstarted) (hm : (p.answer reply).maskOf? id = some m) :
    m = p.signal.masked := by
  have hanswered : (p.answer reply).Unstarted := h.congr (sameBooks_with ..)
  exact hanswered.masked_eq rfl hm

/-- A signal that arrives ends the process. -/
theorem masked_answerOpen (h : p.Unstarted) (hm : (p.answerOpen reply).maskOf? id = some m) :
    m = p.signal.masked := by
  unfold answerOpen at hm
  split at hm
  · rw [deliver, if_neg (by simp [h.isInitialised_eq])] at hm
    contradiction
  · exact h.masked_answer hm

theorem masked_leave (h : p.Unstarted) (guard : Guard)
    (hm : (p.leave guard reply).maskOf? id = some m) : m = (guard.wasMasked && p.signal.masked) := by
  rw [(h.congr (sameBooks_with ..)).masked_answerOpen hm, PreemptSignal.masked_restore]

theorem masked_section {q : Process} (h : q.Unstarted) (hsignal : q.signal = p.signal.block)
    (hm : (q.leave p.signal.guard reply).maskOf? id = some m) : m = p.signal.masked := by
  rw [h.masked_leave _ hm, hsignal]
  exact Bool.and_true _

/-- Whoever starts the scheduler is a thread from then on. -/
theorem masked_init (h : p.Unstarted) (hquiet : p.signal.arrives = false) (config : Config)
    (hm : (p.init config).maskOf? .nobody = some m) : m = p.signal.masked := by
  cases h.inits hquiet config with
  | refused _ hq =>
      rw [hq] at hm
      exact h.masked_answer hm
  | @overflowed cause _ hq =>
      rw [hq] at hm
      exact (h.allocateId (.client (.overflowed cause))).masked_eq rfl hm
  | starts _ hq =>
      have hself : .nobody ≠ (p.init config).self := by
        rw [(h.starts hq).self_eq]
        exact h.nobody_ne_nextId
      have hsaved := maskOf?_of_ne_self hself hm
      simp [savedMask?, hq.saved, h.saved] at hsaved
  | stopped hover => simp [maskOf?_of_over hover] at hm

theorem masked_perform (h : p.Unstarted) (hquiet : p.signal.arrives = false) (call : Call)
    (hm : (p.perform call).maskOf? .nobody = some m) : m = call.maskAfter p.signal.masked := by
  have hblock : p.block.Unstarted := h.congr p.sameBooks_block
  cases call with
  | init config => exact h.masked_init hquiet config hm
  | create routine arg =>
      rw [perform, create, if_pos (by simp [h.isInitialised_eq])] at hm
      exact h.masked_answer hm
  | join id =>
      rw [perform, join, if_pos (by simp [h.isInitialised_eq])] at hm
      exact h.masked_answer hm
  | cancel id =>
      rw [perform, cancel, if_pos (by simp [h.isInitialised_eq])] at hm
      exact h.masked_answer hm
  | yield =>
      have hready : p.block.scheduler.ready = [] := by rw [block, h.scheduler]
      rw [perform, yield, handOver_nil hready] at hm
      exact hblock.masked_section rfl hm
  | currentId => exact hblock.masked_section rfl hm
  | debug =>
      rw [perform, debug, foldl_note] at hm
      exact (hblock.congr (sameBooks_with ..)).masked_section rfl hm
  | release guard => exact h.masked_leave guard hm
  | unmask => exact (h.congr (sameBooks_with ..)).masked_answerOpen hm
  | raise =>
      have hraised : { p with signal := p.signal.raise }.Unstarted := h.congr (sameBooks_with ..)
      exact hraised.masked_answerOpen hm
  | mask => exact hblock.masked_answer hm
  | isInitialised | liveStacks => exact h.masked_answer hm
  | setErrno number =>
      have hset : { p with errno := number }.Unstarted := h.congr (sameBooks_with ..)
      exact hset.masked_answer hm
  | arm quantum =>
      rw [perform, arm] at hm
      split at hm
      · next e _ =>
          have hset : { p with errno := e.number.getD p.errno }.Unstarted :=
            h.congr (sameBooks_with ..)
          exact hset.masked_answer hm
      · have hset : { p with timer := .stopped }.Unstarted := h.congr (sameBooks_with ..)
        exact (hset.congr ((SameBooks.refl _).note _)).masked_answer hm
  | exit value =>
      have hblock' : p.block.isInitialised = false := h.isInitialised_eq
      rw [perform, exit, if_pos (by simp [hblock'])] at hm
      contradiction
  | panic | abort | quit => contradiction

end Unstarted

/-! ## along a run -/

/-- A step of one thread leaves the masks of all others alone. -/
theorem Run.maskOf?_of_ne (run : Run τ p) (h : p.Step move q) (hover : p.isOver = false)
    (hid : id ≠ p.self) (hknown : id.val < p.scheduler.nextId.val)
    (hm : q.maskOf? id = some m) : p.maskOf? id = some m := by
  have hnext : id ≠ p.scheduler.nextId := by
    intro heq
    rw [heq] at hknown
    exact Nat.lt_irrefl _ hknown
  rw [maskOf?_eq_savedMask? hover hid]
  cases h with
  | call hclient call =>
      obtain ⟨-, ⟨hp, hquiet⟩ | ⟨c, hp⟩⟩ := run.consistent.client hclient
      · have hnone := (hp.performs hquiet call).maskOf?_of_ne hp (hp.self_eq ▸ hid) hnext
        rw [hnone] at hm
        contradiction
      · exact (hp.performs call).maskOf?_of_ne hp (hp.books.self_eq ▸ hid) hnext hm
  | turn hsettled =>
      obtain ⟨-, c, hp, hq⟩ := run.consistent.turn hsettled
      have hreaped : p.reap.savedMask? id = some m :=
        hq.maskOf?_of_ne hp.reap (hp.self_eq ▸ hid) hm
      exact hreaped
  | listen => rwa [← maskOf?_eq_savedMask? hover hid]

/-- A turn leaves the mask of the thread that goes on alone. -/
theorem Run.maskOf?_advance (run : Run τ p) (hsettled : p.isSettled = false) :
    p.advance.maskOf? p.self = p.maskOf? p.self := by
  obtain ⟨-, c, r, hp, hcontrol, hmasked, hgoes, -⟩ := run.consistent.arrives hsettled
  rw [hp.self_eq]
  exact hp.maskOf?_advance hcontrol hmasked hgoes

/-- The mask under which a caller goes on after its call. -/
theorem Run.masked_perform {call : Call} (run : Run τ p) (hclient : p.control = .client reply)
    (hexit : call.exitValue? p.self = none) (hm : (p.perform call).maskOf? p.self = some m) :
    m = call.maskAfter p.signal.masked := by
  obtain ⟨-, ⟨hp, hquiet⟩ | ⟨c, hp⟩⟩ := run.consistent.client hclient
  · rw [hp.self_eq] at hm
    exact hp.masked_perform hquiet call hm
  · rw [hp.books.self_eq] at hexit hm
    cases hfatal : call.isFatal with
    | true => cases call <;> contradiction
    | false =>
        cases hp.maskOf?_perform call hexit hfatal with
        | inl hmask => exact Option.some.inj (hm.symm.trans hmask)
        | inr hdied =>
            obtain ⟨e, he⟩ := hdied
            rw [he] at hm
            contradiction

/-- While a call is underway the mask of its caller waits for it to return. -/
theorem Underway.masked {call : Call} (h : p.Underway call q) (run : Run τ p)
    (hexit : call.exitValue? p.self = none) (hm : q.maskOf? p.self = some m) :
    m = call.maskAfter p.signal.masked := by
  induction h with
  | called hclient => exact run.masked_perform hclient hexit hm
  | @step q r move h hruns hstep ih =>
      obtain ⟨τ', run'⟩ := h.run run
      have hover := hstep.isOver_eq_false (isOver_of_maskOf? hm)
      -- the step is one of the caller's turns, or one of another thread
      apply ih
      by_cases hself : p.self = q.self
      · cases hstep with
        | call hclient => exact absurd ⟨hself.symm, _, hclient⟩ hruns
        | turn hsettled => rwa [hself, ← run'.maskOf?_advance hsettled, ← hself]
        | listen => exact hm
      · exact run'.maskOf?_of_ne hstep hover hself (h.self_lt run hover) hm

/-! ## where the mask is open -/

/-- A signal that arrives as the mask opens leaves it open. -/
theorem masked_of_unblock (h : (p.unblock told).control = .client reply) :
    (p.unblock told).signal.masked = false := by
  unfold unblock answerOpen at h ⊢
  split at h
  · next harrives =>
      rw [if_pos harrives]
      unfold deliver at h ⊢
      split at h
      · next hinit =>
          rw [if_pos hinit]
          obtain ⟨s, hs⟩ := client_of_handOver h
          rw [hs]
          rfl
      · contradiction
  · next hquiet => rw [if_neg hquiet]; rfl

/-- A start opens the mask. -/
theorem Run.masked_init {config : Config} (run : Run τ p) (hclient : p.control = .client reply)
    (hdone : (p.init config).control = .client .done) :
    (p.init config).signal.masked = false := by
  obtain ⟨-, ⟨hp, hquiet⟩ | ⟨c, hp⟩⟩ := run.consistent.client hclient
  · cases hp.inits hquiet config with
    | refused _ hq => simp [hq, answer] at hdone
    | overflowed _ hq => simp [hq] at hdone
    | starts _ _ hsignal => rw [hsignal]
    | stopped hover => simp [hover] at hdone
  · rw [hp.init_eq] at hdone
    exact absurd (reply_of_answerOpen hdone) (by simp)

theorem masked_resume (h : (p.resume r).control = .client (.begin routine arg)) :
    (p.resume r).signal.masked = false := by
  cases r with
  | begin =>
      have hbegin : p.beginRoutine.control = .client (.begin routine arg) := h
      show p.beginRoutine.signal.masked = false
      unfold beginRoutine at hbegin ⊢
      split at hbegin
      · exact masked_of_unblock hbegin
      · contradiction
  | yielding guard => exact absurd (reply_of_answerOpen h) (by simp)
  | joining target guard => exact absurd (admits_awaitEnd h) (by simp [Call.admits])
  | exiting value => exact absurd h (control_awaitOthers_ne _ _)
  | preempted errno reply => exact masked_of_unblock h

/-- A routine begins with the mask open. -/
theorem Run.masked_begin (run : Run τ p) (h : p.control = .client (.begin routine arg)) :
    p.signal.masked = false := by
  induction run with
  | start => exact Reply.noConfusion (Control.client.inj h)
  | step run hstep ih =>
      cases hstep with
      | call hclient call =>
          have hadmits := admits_perform call h
          cases call <;> contradiction
      | turn hsettled =>
          unfold advance at h ⊢
          split
          · next hcontrol => rw [hcontrol] at h; exact masked_resume h
          · next hcontrol => rw [hcontrol] at h; exact masked_resume h
          · next hcontrol => simp [isSettled, hcontrol] at hsettled
          · next hcontrol => simp [isSettled, hcontrol] at hsettled
      | listen => exact ih h

/-- **The mask belongs to the thread whose code runs**, in every run.

* A call returns under the mask under which it was made, whatever other threads
  have done to theirs in the meantime, unless it is there to change the mask.
* A start leaves the mask open.
* So does the thread that is switched to for the first time, before its routine
  begins. -/
theorem mask_belongs_to_caller (run : Run τ p) :
    (∀ call reply q, call.exitValue? p.self = none → p.Returns call reply q →
      q.signal.masked = call.maskAfter p.signal.masked) ∧
    (∀ reply config, p.control = .client reply →
      (p.perform (.init config)).control = .client .done →
      (p.perform (.init config)).signal.masked = false) ∧
    ∀ routine arg, p.control = .client (.begin routine arg) → p.signal.masked = false := by
  refine ⟨?_, ?_, ?_⟩
  · intro call reply q hexit hreturns
    exact hreturns.underway.masked run hexit (maskOf?_client hreturns.control hreturns.self)
  · intro reply config hclient hdone
    exact run.masked_init hclient hdone
  · intro routine arg hbegin
    exact run.masked_begin hbegin

/-- The initial thread holds the signal off, makes a thread and waits for it.
The new thread begins with the mask open; the join returns with the mask
closed. -/
theorem masked_join_returns_masked :
    let moves : List Move :=
      [.call (.init (.ofMicros 1000)), .call .mask, .call (.create ⟨0, .native⟩ 5)]
    ∃ τ p τ' b q, ({} : Process).follow [] moves = some (τ, p) ∧ p.signal.masked = true ∧
      p.follow τ [.call (.join ⟨2⟩), .turn] = some (τ', b) ∧
      b.control = .client (.begin ⟨0, .native⟩ 5) ∧ b.signal.masked = false ∧
      p.Returns (.join ⟨2⟩) (.status (.returned 7)) q ∧ q.signal.masked = true := by
  intro moves
  obtain ⟨τ, p, hfollow⟩ : ∃ τ p, ({} : Process).follow [] moves = some (τ, p) := ⟨_, _, rfl⟩
  have run := Run.start.follow hfollow
  obtain ⟨τ', b, hbegun⟩ : ∃ τ' b, p.follow τ [.call (.join ⟨2⟩), .turn] = some (τ', b) := by
    obtain ⟨rfl, rfl⟩ := Prod.mk.inj (Option.some.inj hfollow)
    exact ⟨_, _, rfl⟩
  have hmasked : p.signal.masked = true := by
    obtain ⟨-, rfl⟩ := Prod.mk.inj (Option.some.inj hfollow)
    rfl
  have hcontrol : b.control = .client (.begin ⟨0, .native⟩ 5) := by
    obtain ⟨rfl, rfl⟩ := Prod.mk.inj (Option.some.inj hfollow)
    obtain ⟨-, rfl⟩ := Prod.mk.inj (Option.some.inj hbegun)
    rfl
  have hreturns : p.Returns (.join ⟨2⟩) (.status (.returned 7))
      ((p.perform (.join ⟨2⟩)).advance.perform (.exit 7)).advance := by
    obtain ⟨-, rfl⟩ := Prod.mk.inj (Option.some.inj hfollow)
    refine ⟨?_, by decide, by decide⟩
    refine .step (.step (.step (.called rfl) ?_ (.turn rfl)) ?_ (.call rfl _)) ?_ (.turn rfl) <;>
      decide
  have hopen := (mask_belongs_to_caller (run.follow hbegun)).2.2 _ _ hcontrol
  have hkept := (mask_belongs_to_caller run).1 _ _ _ rfl hreturns
  exact ⟨τ, p, τ', b, _, hfollow, hmasked, hbegun, hcontrol, hopen, hreturns, hkept.trans hmasked⟩

end Process

end GreenThreads
