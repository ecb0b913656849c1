import GreenThreads.Proofs.Calls

/-!
# GreenThreads.Proofs.Pending

What a pending signal changes.

While the preemption signal is held off nobody looks whether it is pending.  So
a process does the same as it would if the signal had not been raised, up to
the step that opens the mask for client code.  There the signal arrives:

* `late_perform`, `late_advance` — one step of a process in which the signal is
  pending, and of one in which it is not (`Late`);
* `Shut.raised` — any number of steps none of which opens the mask.
-/

namespace GreenThreads.Process

variable {p q : Process}

/-- The process, had the signal been raised in it. -/
def raised (p : Process) : Process := { p with signal := p.signal.raise }

/-- Client code holds the processor, and the signal would get through. -/
def isOpen (p : Process) : Bool :=
  match p.control with
  | .client _ => !p.signal.masked
  | _ => false

/-- `a` is what becomes of `b` when the signal had been raised before: it still
is pending, or it arrives where the mask has been opened. -/
inductive Late (a b : Process) : Prop where
  | held (hquiet : b.signal.pending = false) (hshut : b.isOpen = false) (heq : a = b.raised)
  | arrived (hquiet : b.signal.pending = false) (hcontrol : b.control = .client told)
      (hopen : b.signal.masked = false) (heq : a = b.raised.deliver told)

/-! ## the mask opens -/

theorem load_answer (p : Process) (reply : Reply) (id : ThreadId) :
    (p.answer reply).load id = p.load id := by
  unfold load
  have hsaved : (p.answer reply).saved.lookup id = p.saved.lookup id := rfl
  rw [hsaved]
  cases p.saved.lookup id <;> rfl

theorem load_raised (p : Process) (id : ThreadId) : p.raised.load id = (p.load id).raised := by
  unfold load
  have hsaved : p.raised.saved.lookup id = p.saved.lookup id := rfl
  rw [hsaved]
  cases p.saved.lookup id <;> rfl

theorem isOpen_load (p : Process) (id : ThreadId) : (p.load id).isOpen = false := by
  unfold load
  split <;> rfl

/-- A signal that arrives comes before the reply that was to be seen. -/
theorem deliver_answer (p : Process) (reply told : Reply) :
    (p.answer reply).deliver told = p.deliver told := by
  unfold deliver
  have hinit : (p.answer reply).isInitialised = p.isInitialised := rfl
  rw [hinit]
  split
  · unfold handOver
    have hbooks : (p.answer reply).scheduler = p.scheduler := rfl
    simp only [hbooks]
    rcases p.scheduler.rotate with ⟨_ | switch, s⟩
    · rfl
    · exact load_answer (store switch.save.owner (.preempted p.errno told)
        { p with scheduler := s, signal := p.signal.accept }) reply switch.load.owner
  · rfl

/-- A signal that arrives is spent, however often it was raised. -/
theorem deliver_raised (hinit : p.isInitialised = true) (told : Reply) :
    p.raised.deliver told = p.deliver told := by
  have hinit' : p.raised.isInitialised = true := hinit
  rw [deliver, deliver, if_pos hinit, if_pos hinit']
  rfl

theorem late_answerOpen (h : p.signal.pending = false) (reply : Reply) :
    Late (p.raised.answerOpen reply) (p.answerOpen reply) := by
  have hquiet : p.signal.arrives = false := by simp [PreemptSignal.arrives, h]
  have hanswer : p.answerOpen reply = p.answer reply := by rw [answerOpen, hquiet]; rfl
  rw [hanswer]
  cases hmasked : p.signal.masked with
  | true =>
      have hquiet' : p.raised.signal.arrives = false := by
        simp [raised, PreemptSignal.raise, PreemptSignal.arrives, hmasked]
      refine .held h ?_ ?_
      · simp [isOpen, answer, hmasked]
      · rw [answerOpen, hquiet']
        rfl
  | false =>
      have harrives : p.raised.signal.arrives = true := by
        simp [raised, PreemptSignal.raise, PreemptSignal.arrives, hmasked]
      refine .arrived h rfl hmasked ?_
      rw [answerOpen, if_pos harrives]
      exact (deliver_answer p.raised reply reply).symm

theorem late_unblock (h : p.signal.pending = false) (reply : Reply) :
    Late (p.raised.unblock reply) (p.unblock reply) :=
  late_answerOpen (p := { p with signal := p.signal.unblock }) h reply

theorem late_leave (h : p.signal.pending = false) (guard : Guard) (reply : Reply) :
    Late (p.raised.leave guard reply) (p.leave guard reply) := by
  have hrestore : (p.signal.restore guard).pending = false ∧
      p.signal.raise.restore guard = (p.signal.restore guard).raise := by
    cases hguard : guard.wasMasked <;>
      simp [PreemptSignal.restore, PreemptSignal.raise, PreemptSignal.unblock, hguard, h]
  have hlate := late_answerOpen (p := { p with signal := p.signal.restore guard }) hrestore.1 reply
  rw [raised, ← hrestore.2] at hlate
  exact hlate

/-! ## nobody looks -/

theorem late_load (h : p.signal.pending = false) (id : ThreadId) :
    Late (p.raised.load id) (p.load id) := by
  refine .held ?_ (isOpen_load p id) (load_raised p id)
  unfold load
  split <;> exact h

theorem late_handOver {stay : Process → Process} (h : p.signal.pending = false)
    (hstay : ∀ s, Late (stay { p.raised with scheduler := s }) (stay { p with scheduler := s })) :
    Late (p.raised.handOver r stay) (p.handOver r stay) := by
  unfold handOver
  have hbooks : p.raised.scheduler = p.scheduler := rfl
  rw [hbooks]
  rcases p.scheduler.rotate with ⟨_ | switch, s⟩
  · exact hstay s
  · exact late_load (p := store switch.save.owner r { p with scheduler := s }) h switch.load.owner

theorem late_awaitEnd (h : p.signal.pending = false) (target : ThreadId) (guard : Guard) :
    Late (p.raised.awaitEnd target guard) (p.awaitEnd target guard) := by
  unfold awaitEnd
  have hbooks : p.raised.scheduler = p.scheduler := rfl
  rw [hbooks]
  split
  · exact late_handOver h fun s => .held h rfl rfl
  · rcases p.scheduler.endJoin target with ⟨e | status, s⟩
    · exact late_leave (p := { p with scheduler := s }) h _ _
    · exact late_leave (p := { p with scheduler := s }.note _) h _ _

theorem late_awaitOthers (h : p.signal.pending = false) (value : Word) :
    Late (p.raised.awaitOthers value) (p.awaitOthers value) := by
  unfold awaitOthers
  have hbooks : p.raised.scheduler = p.scheduler := rfl
  rw [hbooks]
  split
  · exact .held h rfl rfl
  · exact late_handOver h fun s => .held h rfl rfl

theorem late_beginRoutine (h : p.signal.pending = false) :
    Late p.raised.beginRoutine p.beginRoutine := by
  unfold beginRoutine
  have hbooks : p.raised.scheduler = p.scheduler := rfl
  rw [hbooks]
  split
  · next routine arg t _ =>
      exact late_unblock (p := { p with scheduler := { p.scheduler with current := some t } }) h _
  · exact .held h rfl rfl

/-- **Whether the signal is pending does not matter to a thread that goes on, until
its code does.** -/
theorem late_resume (h : p.signal.pending = false) (r : Resumption) :
    Late (p.raised.resume r) (p.resume r) := by
  cases r with
  | begin => exact late_beginRoutine h
  | yielding guard => exact late_leave h _ _
  | joining target guard => exact late_awaitEnd h _ _
  | exiting value => exact late_awaitOthers h value
  | preempted errno reply => exact late_unblock (p := { p with errno }) h _

theorem late_advance (h : p.signal.pending = false) (hsettled : p.isSettled = false) :
    Late p.raised.advance p.advance := by
  have hcontrol : p.raised.control = p.control := rfl
  unfold advance
  rw [hcontrol]
  cases hp : p.control with
  | arriving r => exact late_resume (p := p.reap) h r
  | waiting r => exact late_resume h r
  | _ => simp [isSettled, hp] at hsettled

/-! ## calls -/

section

variable (h : p.signal.pending = false)
include h

theorem late_init (config : Config) : Late (p.raised.init config) (p.init config) := by
  have hbooks : p.raised.block.scheduler = p.block.scheduler := rfl
  have hinit : p.raised.block.isInitialised = p.block.isInitialised := rfl
  unfold init
  simp only [hbooks, hinit]
  split
  · exact late_leave (p := p.block) h _ _
  · split
    · exact late_leave (p := p.block) h _ _
    · split
      · exact late_leave (p := { p.block with scheduler := _ }) h _ _
      · split
        · exact .held h rfl rfl
        · next timer _ =>
            exact late_unblock (p := note _ (note _ { note _ (release _
              { p.block with scheduler := _, host := _ }) with timer })) h _

theorem late_create (hanswer : ∀ r, Late (p.raised.answer r) (p.answer r)) (routine : Routine)
    (arg : Word) : Late (p.raised.create routine arg) (p.create routine arg) := by
  have hbooks : p.raised.block.scheduler = p.block.scheduler := rfl
  have hpool : p.raised.block.pool = p.block.pool := rfl
  have hinit : p.raised.isInitialised = p.isInitialised := rfl
  unfold create
  rw [hinit]
  split
  · exact hanswer _
  · simp only [hbooks, hpool]
    split
    · exact late_leave (p := p.block) h _ _
    · exact .held h rfl rfl
    · exact late_leave (p := note _ (keep _ _ { p.block with scheduler := _, pool := _ })) h _ _

theorem late_join (hanswer : ∀ r, Late (p.raised.answer r) (p.answer r)) (id : ThreadId) :
    Late (p.raised.join id) (p.join id) := by
  have hbooks : p.raised.block.scheduler = p.block.scheduler := rfl
  have hinit : p.raised.isInitialised = p.isInitialised := rfl
  unfold join
  rw [hinit]
  split
  · exact hanswer _
  · simp only [hbooks]
    split
    · exact late_leave (p := p.block) h _ _
    · next s _ => exact late_awaitEnd (p := { p.block with scheduler := s }.note _) h _ _

theorem late_yield : Late p.raised.yield p.yield := by
  unfold yield
  exact late_handOver (p := p.block) h fun s =>
    late_leave (p := { p.block with scheduler := s }) h _ _

theorem late_exit (value : Word) : Late (p.raised.exit value) (p.exit value) := by
  have hbooks : p.raised.block.scheduler = p.block.scheduler := rfl
  have hinit : p.raised.block.isInitialised = p.block.isInitialised := rfl
  unfold exit
  simp only [hbooks, hinit]
  split
  · exact .held h rfl rfl
  · split
    · exact late_awaitOthers (p := p.block.note .initialExiting) h value
    · rcases p.block.scheduler.retire value with ⟨_ | next, s⟩
      · exact .held h rfl rfl
      · exact late_load (p := note _ { p.block with scheduler := s }) h next.owner

theorem late_cancel (hanswer : ∀ r, Late (p.raised.answer r) (p.answer r)) (id : ThreadId) :
    Late (p.raised.cancel id) (p.cancel id) := by
  have hbooks : p.raised.block.scheduler = p.block.scheduler := rfl
  have hself : p.raised.scheduler.currentId = p.scheduler.currentId := rfl
  have hinit : p.raised.isInitialised = p.isInitialised := rfl
  unfold cancel
  rw [hinit, hself]
  split
  · exact hanswer _
  · split
    · exact late_exit h 0
    · simp only [hbooks]
      rcases p.block.scheduler.cancel id with e | ⟨freed, s⟩
      · exact late_leave (p := p.block) h _ _
      · exact late_leave (p := note _ (forget id (release freed { p.block with scheduler := s })))
          h _ _

theorem late_debug : Late p.raised.debug p.debug := by
  unfold debug
  rw [foldl_note, foldl_note]
  exact late_leave (p := { p.block with journal := _ }) h _ _

end

/-- **Whether the signal is pending does not matter to a call that is made under a
mask, unless it opens the mask.** -/
theorem late_perform (h : p.signal.pending = false) (hmasked : p.signal.masked = true) (call : Call)
    (hraise : call ≠ .raise) : Late (p.raised.perform call) (p.perform call) := by
  have hanswer (r : Reply) : Late (p.raised.answer r) (p.answer r) :=
    .held h (by simp [isOpen, answer, hmasked]) rfl
  cases call with
  | init config => exact late_init h config
  | create routine arg => exact late_create h hanswer routine arg
  | join id => exact late_join h hanswer id
  | cancel id => exact late_cancel h hanswer id
  | yield => exact late_yield h
  | exit value => exact late_exit h value
  | panic => exact .held h rfl rfl
  | currentId => exact late_leave (p := p.block) h _ _
  | isInitialised => exact hanswer _
  | liveStacks => exact hanswer _
  | debug => exact late_debug h
  | mask => exact .held h rfl rfl
  | release guard => exact late_leave h _ _
  | unmask => exact late_unblock h _
  | raise => contradiction
  | arm quantum =>
      simp only [perform, arm]
      split
      · exact .held h (by simp [isOpen, answer, hmasked]) rfl
      · exact .held h (by simp [isOpen, answer, note, tell, hmasked]) rfl
  | setErrno number => exact .held h (by simp [isOpen, perform, answer, hmasked]) rfl
  | abort => exact .held h rfl rfl
  | quit code => exact .held h rfl rfl

/-! ## one step and many -/

/-- What a step does, and what it does when the signal has been raised before. -/
theorem Step.late (hstep : p.Step move q) (h : p.signal.pending = false) (hshut : p.isOpen = false)
    (hmove : move ≠ .call .raise) : ∃ a, p.raised.Step move a ∧ Late a q := by
  cases hstep with
  | call hclient call =>
      have hmasked : p.signal.masked = true := by simpa [isOpen, hclient] using hshut
      have hclient' : p.raised.control = .client _ := hclient
      refine ⟨_, .call hclient' call, late_perform h hmasked call ?_⟩
      rintro rfl
      exact hmove rfl
  | turn hsettled =>
      have hsettled' : p.raised.isSettled = false := hsettled
      exact ⟨_, .turn hsettled', late_advance h hsettled⟩
  | listen => exact ⟨_, .listen, .held h hshut rfl⟩

/-- The steps of some moves, none of which raises the signal or opens the mask for
client code. -/
inductive Shut : Process → List Move → Process → Prop where
  | nil (a : Process) : Shut a [] a
  | cons (hstep : a.Step move b) (hmove : move ≠ .call .raise) (hshut : b.isOpen = false)
      (rest : Shut b moves c) : Shut a (move :: moves) c

/-- **As long as the mask stays shut, a signal that has been raised stays pending and
changes nothing.** -/
theorem Shut.raised (hmoves : p.Shut moves q) (h : p.signal.pending = false)
    (hshut : p.isOpen = false) :
    p.raised.Shut moves q.raised ∧ q.signal.pending = false ∧ q.isOpen = false := by
  induction hmoves with
  | nil p => exact ⟨.nil _, h, hshut⟩
  | cons hstep hmove hnext rest ih =>
      obtain ⟨a, ha, hlate⟩ := hstep.late h hshut hmove
      cases hlate with
      | arrived hquiet hcontrol hopen => simp [isOpen, hcontrol, hopen] at hnext
      | held hquiet _ heq =>
          subst heq
          obtain ⟨hrest, hend⟩ := ih hquiet hnext
          exact ⟨.cons ha hmove hnext hrest, hend⟩

end GreenThreads.Process
