import GreenThreads.Proofs.Finality

/-!
# GreenThreads.Proofs.Routines

Each routine runs at most once, as the thread that was made for it.

A thread that is switched out and has made no call has not run yet, or was
preempted on its way to its routine.  Either way it is to begin the routine it
was made with: `Transcript.Orders`.  The books keep it so (`Run.orders`), since
nobody else's descriptor is touched on the way, and a routine that is taken is
begun or kept with the machine state (`Books.advance_of_begins`).

The main statement is `routine_runs_once`.
-/

namespace GreenThreads

/-! ## threads that have not begun -/

/-- The thread is to begin `routine` with `arg`: it has not run yet, or the
signal has come between the descriptor and the routine. -/
inductive Thread.Begins (t : Thread) (routine : Routine) (arg : Word) : Resumption → Prop where
  | first (hroutine : t.routine = some routine) (harg : t.arg = arg) : Begins t routine arg .begin
  | preempted : Begins t routine arg (.preempted errno (.begin routine arg))

/-- Whether the thread begins its routine. -/
def Moment.begins (id : ThreadId) : Moment → Bool
  | .answered thread (.begin ..) => thread = id
  | _ => false

theorem Moment.begins_iff {m : Moment} {id : ThreadId} :
    m.begins id ↔ ∃ routine arg, m = .answered id (.begin routine arg) := by
  unfold begins
  split
  · next thread routine arg => simp
  · next hne => simpa using fun routine arg heq => hne id routine arg heq

namespace Transcript

variable {τ : Transcript} {id : ThreadId} {t : Thread} {m : Moment}

/-- A thread that has made no call, and is to go on with `r`, has not run and is
to begin the routine that it was made with. -/
def Orders (τ : Transcript) (t : Thread) (r : Resumption) : Prop :=
  τ.outstanding t.id = none →
    τ.Silent t.id ∧ ∃ routine arg, t.Begins routine arg r ∧ τ.Made t.id routine arg

/-- What others do and see changes nothing about it. -/
theorem Orders.cons (h : τ.Orders t r) (hm : m.thread ≠ t.id) : Orders (m :: τ) t r := by
  intro hcall
  rw [outstanding_cons_of_ne hm] at hcall
  obtain ⟨hsilent, routine, arg, hbegins, hmade⟩ := h hcall
  exact ⟨silent_cons.mpr ⟨hm, hsilent⟩, routine, arg, hbegins, hmade.mono (List.suffix_cons _ _)⟩

/-- A thread that waits for its call has begun. -/
theorem orders_of_outstanding {call : Call} (h : τ.outstanding t.id = some call) :
    τ.Orders t r := by
  intro hcall
  exact nomatch h.symm.trans hcall

theorem nodup_created_of_cons (h : (created (m :: τ)).Nodup) : τ.created.Nodup := by
  cases m with
  | called thread call => exact h
  | answered thread reply =>
      simp only [created] at h
      split at h
      · exact (List.nodup_cons.mp h).2
      · exact h

/-- A thread that was made before is not made again. -/
theorem not_made_of_answered {thread : ThreadId} (hnodup : (created (m :: τ)).Nodup)
    (hm : m = .answered thread (.thread id))
    (hcall : τ.outstanding thread = some (.create routine arg)) : ¬ τ.Made id routine' arg' := by
  intro hmade
  rw [hm, created_answered_create hcall] at hnodup
  exact (List.nodup_cons.mp hnodup).1 (mem_created_iff.mpr ⟨_, _, hmade⟩)

/-- A thread is made once. -/
theorem made_unique (hnodup : τ.created.Nodup) (h : τ.Made id routine arg)
    (h' : τ.Made id routine' arg') : routine' = routine ∧ arg' = arg := by
  induction τ with
  | nil =>
      obtain ⟨creator, earlier, hsuffix, -⟩ := h
      simp at hsuffix
  | cons m τ ih =>
      obtain ⟨creator, earlier, hmade⟩ := h
      obtain ⟨creator', earlier', hmade'⟩ := h'
      cases answered_cons.mp hmade with
      | inl hnow =>
          obtain ⟨hm, rfl, hcall⟩ := hnow
          cases answered_cons.mp hmade' with
          | inl hnow' =>
              obtain ⟨hm', -, hcall'⟩ := hnow'
              obtain ⟨rfl, -⟩ := Moment.answered.inj (hm.symm.trans hm')
              obtain ⟨rfl, rfl⟩ := Call.create.inj (Option.some.inj (hcall.symm.trans hcall'))
              exact ⟨rfl, rfl⟩
          | inr hold' => exact absurd ⟨_, _, hold'⟩ (not_made_of_answered hnodup hm hcall)
      | inr hold =>
          cases answered_cons.mp hmade' with
          | inl hnow' =>
              obtain ⟨hm', rfl, hcall'⟩ := hnow'
              exact absurd ⟨_, _, hold⟩ (not_made_of_answered hnodup hm' hcall')
          | inr hold' => exact ih (nodup_created_of_cons hnodup) ⟨_, _, hold⟩ ⟨_, _, hold'⟩

end Transcript

namespace Process

variable {τ earlier : Transcript} {p q : Process} {c n : Thread} {r : Resumption} {s : Saved}
  {P Q : Thread → Resumption → Prop} {move : Move} {id : ThreadId}

/-! ## threads that are switched out -/

/-- What is to be said of every thread that is switched out, and of where it will
go on. -/
def EachPaused (P : Thread → Resumption → Prop) (p : Process) : Prop :=
  ∀ t ∈ p.scheduler.ready, ∀ s, p.saved.lookup t.id = some s → P t s.resumption

/-- The same of the thread that has just been switched to. -/
def OnArrival (P : Thread → Resumption → Prop) (p : Process) : Prop :=
  ∀ c r, p.scheduler.current = some c → p.control = .arriving r → P c r

namespace EachPaused

theorem imp (h : p.EachPaused P) (himp : ∀ t ∈ p.scheduler.ready, ∀ r, P t r → Q t r) :
    p.EachPaused Q :=
  fun t ht s hs => himp t ht _ (h t ht s hs)

theorem congr (h : p.EachPaused P) (hq : p.SameBooks q) : q.EachPaused P := by
  unfold EachPaused
  rw [hq.scheduler, hq.saved]
  exact h

theorem onArrival (h : p.EachPaused P) (hn : n ∈ p.scheduler.ready)
    (hloaded : p.saved.lookup n.id = some s) (hcurrent : q.scheduler.current = some n)
    (hcontrol : q.control = .arriving s.resumption) : q.OnArrival P := by
  intro c r hc hr
  obtain rfl := Option.some.inj (hcurrent.symm.trans hc)
  obtain rfl := Control.arriving.inj (hcontrol.symm.trans hr)
  exact h n hn s hloaded

theorem handsOver (h : p.EachPaused P) (hp : p.Books c) (hq : p.HandsOver r n s q)
    (hc : P c r) : q.EachPaused P ∧ q.OnArrival P := by
  obtain ⟨rest, hr, heq⟩ := hp.exists_of_handsOver hq
  constructor
  · intro t ht x hx
    cases hp.lookup_of_handsOver hq ht with
    | inl hold => exact h t hold.1 x (hold.2.symm.trans hx)
    | inr hlast =>
        obtain ⟨rfl, hlookup⟩ := hlast
        obtain rfl := Option.some.inj (hlookup.symm.trans hx)
        exact hc
  · exact h.onArrival (by simp [hr]) hq.loaded (by rw [heq]) hq.control

theorem retires (h : p.EachPaused P) (hp : p.Books c) (hq : p.Retires v n s q) :
    q.EachPaused P ∧ q.OnArrival P := by
  obtain ⟨rest, hr, heq⟩ := hp.exists_of_retires hq
  constructor
  · intro t ht x hx
    obtain ⟨hready, hlookup⟩ := hp.lookup_of_retires hq ht
    exact h t hready x (hlookup.symm.trans hx)
  · exact h.onArrival (by simp [hr]) hq.loaded (by rw [heq]) hq.control

theorem creates (h : p.EachPaused P) (hp : p.Books c) (hq : p.Creates routine arg stack q)
    (hnew : P (.create p.scheduler.nextId routine arg stack) .begin) : q.EachPaused P := by
  intro t ht x hx
  cases hp.lookup_of_creates hq ht with
  | inl hold => exact h t hold.1 x (hold.2.symm.trans hx)
  | inr hlast =>
      obtain ⟨rfl, hlookup⟩ := hlast
      obtain rfl := Option.some.inj (hlookup.symm.trans hx)
      exact hnew

theorem cancels (h : p.EachPaused P) (hp : p.Books c) (hq : p.Cancels id freed q) :
    q.EachPaused P := by
  intro t ht x hx
  obtain ⟨hready, hlookup⟩ := hp.lookup_of_cancels hq ht
  exact h t hready x (hlookup.symm.trans hx)

end EachPaused

theorem onArrival_of_client (h : q.control = .client reply) : q.OnArrival P := by
  intro c r _ hcontrol
  exact nomatch h.symm.trans hcontrol

theorem Proceeds.paused_and_arriving {call : Option Call} (h : p.EachPaused P) (hp : p.Books c)
    (hq : p.Proceeds c call q) (hover : q.isOver = false)
    (hc : ∀ r r', q.control = .arriving r' → P (c.pausedAt r) r) :
    q.EachPaused P ∧ q.OnArrival P := by
  cases hq with
  | answered _ hq =>
      have hactive : (p.withCurrent c.active).EachPaused P := h
      exact ⟨hactive.congr hq.books, onArrival_of_client hq.control⟩
  | @paused r n s _ _ _ hq =>
      have hpaused : (p.withCurrent (c.pausedAt r)).EachPaused P := h
      have hbooks : (p.withCurrent (c.pausedAt r)).Books (c.pausedAt r) :=
        hp.setCurrent rfl rfl rfl
      exact hpaused.handsOver hbooks hq (hc r _ hq.control)
  | stopped hstopped => simp [isOver, hstopped] at hover

theorem CallEffect.paused_and_arriving {call : Call} (h : p.EachPaused P) (hp : p.Idle c)
    (hq : p.CallEffect c call q) (hover : q.isOver = false)
    (hc : ∀ r r', q.control = .arriving r' → P (c.pausedAt r) r)
    (hnew : ∀ routine arg stack, call = .create routine arg → p.Creates routine arg stack q →
      P (.create p.scheduler.nextId routine arg stack) .begin) :
    q.EachPaused P ∧ q.OnArrival P := by
  cases hq with
  | answered _ _ hq => exact ⟨h.congr hq.books, onArrival_of_client hq.control⟩
  | proceeds _ hq => exact hq.paused_and_arriving h hp.books hover hc
  | creates hcall hq =>
      exact ⟨h.creates hp.books hq (hnew _ _ _ hcall hq), onArrival_of_client hq.control⟩
  | cancels _ _ hq => exact ⟨h.cancels hp.books hq, onArrival_of_client hq.control⟩
  | retires _ _ hq => exact h.retires hp.books hq
  | stopped hstopped => simp [isOver, hstopped] at hover

/-! ## taking the routine -/

/-- **A routine that is taken is begun**, unless the signal comes first: then it is
kept for when the thread is resumed. -/
theorem Books.advance_of_begins (hp : p.Books c) (hcontrol : p.control = .arriving r)
    (hgoes : c.GoesOn p.scheduler.ids r) (hbegins : c.Begins routine arg r) :
    (p.reap.withCurrent c.active).Answers (.begin routine arg) p.advance ∨
      ∃ errno n s, (p.reap.withCurrent c.active).HandsOver (.preempted errno (.begin routine arg))
        n s p.advance := by
  have hactive : (p.reap.withCurrent c.active).Books c.active := hp.reap.setCurrent rfl rfl rfl
  have hjoining := hgoes.joining
  cases hbegins with
  | first hroutine harg =>
      have htaken : { c with routine := none } = c.active := by
        rw [Thread.active, hjoining]
        rfl
      have heq : p.advance = (p.reap.withCurrent c.active).unblock (.begin routine arg) := by
        rw [advance, hcontrol, ← harg, ← htaken]
        exact hp.reap.beginRoutine_eq hroutine
      rw [heq]
      exact hactive.answerOpen_of_sameBooks (sameBooks_with ..) _
  | @preempted errno =>
      have hnone : c.routine = none := by
        rw [← Option.not_isSome_iff_eq_none]
        intro hsome
        have hbegin := hgoes.routine.mp hsome
        contradiction
      have hsame : p.reap.withCurrent c.active = p.reap := by
        rw [c.active_eq hnone hjoining]
        exact hp.reap.withCurrent_eq
      have heq : p.advance = { p.reap with errno }.unblock (.begin routine arg) := by
        rw [advance, hcontrol]
        rfl
      rw [heq]
      exact hactive.answerOpen_of_sameBooks (hsame ▸ sameBooks_with ..) _

/-! ## along a run -/

/-- What others see changes nothing about the threads that are switched out. -/
theorem orders_seen (h : τ.Orders t r)
    (hself : ∀ reply, q.control = .client reply → q.self ≠ t.id) : (q.seen τ).Orders t r := by
  unfold seen
  split
  · next reply hcontrol => exact h.cons (hself reply hcontrol)
  · exact h

/-- A call leaves the orders of the others, and gives those of the thread that it
makes. -/
theorem Idle.orders (run : Run τ p) (hclient : p.control = .client told) (hp : p.Idle c)
    (h : p.EachPaused τ.Orders) (call : Call) (hover : (p.perform call).isOver = false) :
    (p.perform call).EachPaused (p.transcribe (.call call) (p.perform call) τ).Orders ∧
      (p.perform call).OnArrival (p.transcribe (.call call) (p.perform call) τ).Orders := by
  have heffect := hp.performs call
  have hself : p.self = c.id := hp.books.self_eq
  rw [transcribe, hself]
  refine heffect.paused_and_arriving (h.imp ?_) hp hover ?_ ?_
  · intro t ht r horders
    have hne : c.id ≠ t.id := hp.books.placed.current_ne hp.books.current ht
    refine orders_seen (horders.cons hne) ?_
    intro reply hreply
    rw [heffect.self_of_client hp hreply]
    exact hne
  · intro r r' hcontrol
    rw [seen_arriving hcontrol]
    exact Transcript.orders_of_outstanding (Transcript.outstanding_called_self c.id call τ)
  · rintro routine arg stack rfl hq
    have hid : (p.perform (.create routine arg)).self = c.id := (hp.books.creates hq).self_eq
    have hne : c.id ≠ p.scheduler.nextId := hp.books.ne_of_nextId_le (Nat.le_refl _)
    have hsilent : τ.Silent p.scheduler.nextId :=
      run.silent (isOver_of_client hclient) (Nat.le_refl _)
    rw [seen_client hq.control, hid]
    intro _
    -- what has just been made is new, and is written down with its routine
    refine ⟨?_, routine, arg, .first rfl rfl, c.id, _, List.suffix_refl _, ?_⟩
    · exact Transcript.silent_cons.mpr ⟨hne, Transcript.silent_cons.mpr ⟨hne, hsilent⟩⟩
    · exact Transcript.outstanding_called_self ..

/-- A turn leaves the orders of the others.  If the thread itself has not begun
yet, it does so now or keeps its own. -/
theorem Books.orders_advance (hp : p.Books c) (hcontrol : p.control = .arriving r)
    (hgoes : c.GoesOn p.scheduler.ids r)
    (hproceeds : p.reap.Proceeds c (τ.outstanding c.id) p.advance) (h : p.EachPaused τ.Orders)
    (harrival : p.OnArrival τ.Orders) (hover : p.advance.isOver = false) :
    p.advance.EachPaused (p.advance.seen τ).Orders ∧
      p.advance.OnArrival (p.advance.seen τ).Orders := by
  have hself : ∀ reply, p.advance.control = .client reply → p.advance.self = c.id :=
    fun reply hreply => Proceeds.self_of_client (p := p.reap) hp.reap hproceeds hreply
  have hseen : p.reap.EachPaused (p.advance.seen τ).Orders := by
    refine EachPaused.imp (p := p) h ?_
    intro t ht r horders
    have hne : c.id ≠ t.id := hp.placed.current_ne hp.current ht
    refine orders_seen horders ?_
    intro reply hreply
    rw [hself reply hreply]
    exact hne
  cases hcall : τ.outstanding c.id with
  | some call =>
      refine hproceeds.paused_and_arriving hseen hp.reap hover ?_
      intro r r' hr'
      rw [seen_arriving hr']
      exact Transcript.orders_of_outstanding hcall
  | none =>
      -- it has not run yet, and what it is to begin goes with it
      obtain ⟨hsilent, routine, arg, hbegins, hmade⟩ := harrival c r hp.current hcontrol hcall
      have hactive : (p.reap.withCurrent c.active).Books c.active := hp.reap.setCurrent rfl rfl rfl
      have hpaused : (p.reap.withCurrent c.active).EachPaused (p.advance.seen τ).Orders := hseen
      cases hp.advance_of_begins hcontrol hgoes hbegins with
      | inl hanswers =>
          exact ⟨hpaused.congr hanswers.books, onArrival_of_client hanswers.control⟩
      | inr hswitches =>
          obtain ⟨errno, n, s, hs⟩ := hswitches
          refine hpaused.handsOver hactive hs ?_
          rw [seen_arriving hs.control]
          exact fun _ => ⟨hsilent, routine, arg, .preempted, hmade⟩

/-- Nobody is switched out before the start. -/
theorem EarlyEffect.ready_eq (hp : p.Unstarted) (h : p.EarlyEffect call q)
    (hover : q.isOver = false) :
    q.scheduler.ready = [] ∧ ∃ reply, q.control = .client reply := by
  cases h with
  | answered _ hq => exact ⟨by rw [hq.books.scheduler, hp.scheduler], _, hq.control⟩
  | overflowed _ _ hq => exact ⟨by rw [hq, hp.scheduler]; rfl, _, by rw [hq]⟩
  | starts _ hq hdone => exact ⟨by rw [hq.scheduler]; rfl, _, hdone⟩
  | stopped hstopped => simp [isOver, hstopped] at hover

/-- **A thread that has made no call is to begin the routine it was made with**,
in every run. -/
theorem Run.orders (run : Run τ p) (hover : p.isOver = false) :
    p.EachPaused τ.Orders ∧ p.OnArrival τ.Orders := by
  induction run with
  | start => exact ⟨by simp [EachPaused], by simp [OnArrival]⟩
  | @step τ p move q run hstep ih =>
      obtain ⟨hpaused, harrival⟩ := ih (hstep.isOver_eq_false hover)
      have run' := run.step hstep
      cases hstep with
      | call hclient call =>
          obtain ⟨-, ⟨hp, hquiet⟩ | ⟨c, hp⟩⟩ := run.consistent.client hclient
          · obtain ⟨hready, reply, hreply⟩ := (hp.performs hquiet call).ready_eq hp hover
            exact ⟨by simp [EachPaused, hready], onArrival_of_client hreply⟩
          · exact hp.orders run hclient hpaused call hover
      | turn hsettled =>
          obtain ⟨-, c, r, hp, hcontrol, hmasked, hgoes, hwaits⟩ := run.consistent.arrives hsettled
          have hproceeds := hp.advances hcontrol hmasked hgoes hwaits
          exact hp.orders_advance hcontrol hgoes hproceeds hpaused harrival hover
      | listen => exact ⟨hpaused, harrival⟩

/-- A thread that begins a routine has not run, and was made with it. -/
theorem Run.silent_and_made_of_begin (run : Run τ p)
    (h : .answered id (.begin routine arg) :: earlier <:+ τ) :
    earlier.Silent id ∧ earlier.Made id routine arg := by
  obtain ⟨q, hreply, rfl, -, hreached⟩ := run.exists_of_answered h
  cases hreached with
  | @call τ p _ run hclient call hq hτ =>
      -- no call is answered with a routine at once
      subst hq
      have hadmits := admits_perform call hreply
      cases call <;> contradiction
  | @turn p run hsettled hq =>
      subst hq
      obtain ⟨hself, hdue⟩ := run.advance_client hsettled hreply
      obtain ⟨-, c, r, hp, hcontrol, -, hgoes, -⟩ := run.consistent.arrives hsettled
      have hnone : earlier.outstanding c.id = none := by
        rw [← hp.self_eq]
        generalize earlier.outstanding p.self = call at hdue
        cases hdue
        rfl
      have hover : p.isOver = false := by
        rw [isOver, hcontrol]
      obtain ⟨hsilent, routine', arg', hbegins, hmade⟩ :=
        (run.orders hover).2 c r hp.current hcontrol hnone
      rw [hself, hp.self_eq]
      cases hp.advance_of_begins hcontrol hgoes hbegins with
      | inl hanswers =>
          obtain ⟨rfl, rfl⟩ :=
            Reply.begin.inj (Control.client.inj (hreply.symm.trans hanswers.control))
          exact ⟨hsilent, hmade⟩
      | inr hswitches =>
          obtain ⟨errno, n, s, hs⟩ := hswitches
          rw [hs.control] at hreply
          contradiction

/-- The first that is seen by a thread that was made is its routine. -/
theorem Run.begins_of_silent (run : Run τ p) (h : m :: earlier <:+ τ)
    (hsilent : earlier.Silent m.thread) (hmade : m.thread ∈ earlier.created) :
    ∃ routine arg, m = .answered m.thread (.begin routine arg) := by
  cases m with
  | called who call =>
      -- its code runs, so it has seen something before
      obtain ⟨q, reply, run', hclient, rfl⟩ := run.exists_of_called h
      cases run'.head_of_client hclient with
      | inl hnil =>
          rw [hnil] at hmade
          contradiction
      | inr hseen =>
          obtain ⟨before, rfl⟩ := hseen
          exact absurd rfl (hsilent (.answered q.self reply) List.mem_cons_self)
  | answered who reply =>
      obtain ⟨q, hreply, rfl, -, hreached⟩ := run.exists_of_answered h
      cases hreached with
      | @call τ p _ run hclient call hq hτ =>
          subst hq hτ
          cases run.self_perform hclient hreply with
          | inl hself => exact absurd hself.symm (hsilent _ List.mem_cons_self)
          | inr hstarts =>
              obtain ⟨hp, -⟩ := hstarts
              have hnone : τ.created = [] :=
                (run.consistent.client hclient).1.created_eq_nil hp
              simp [Transcript.created, hnone] at hmade
      | @turn p run hsettled hq =>
          subst hq
          obtain ⟨hself, hdue⟩ := run.advance_client hsettled hreply
          have hnone : earlier.outstanding p.advance.self = none := hsilent.outstanding_eq
          rw [← hself, hnone] at hdue
          cases hdue with
          | begun => exact ⟨_, _, rfl⟩

theorem created_transcribe_of_over (h : q.isOver = true) (p : Process) (move : Move)
    (τ : Transcript) : (p.transcribe move q τ).created = τ.created := by
  obtain ⟨outcome, hcontrol⟩ := exists_outcome_of_isOver h
  cases move <;> simp [transcribe, seen, hcontrol, Transcript.created]

/-- No thread is made twice. -/
theorem Run.nodup_created (run : Run τ p) : τ.created.Nodup := by
  induction run with
  | start => exact .nil
  | @step τ p move q run hstep ih =>
      cases hover : q.isOver with
      | true =>
          rw [created_transcribe_of_over hover]
          exact ih
      | false =>
          obtain ⟨hl, hp⟩ := (run.step hstep).consistent.books hover
          have hplaced : q.scheduler.Placed := by
            cases hp with
            | inl hp => exact hp.placed
            | inr hp => exact hp.choose_spec.placed
          exact (List.nodup_append.mp (hl.threads.nodup_iff.mp hplaced.nodup)).2.1

/-- A thread begins once. -/
theorem Run.countP_begins_le (run : Run τ p) (h : earlier <:+ τ) (id : ThreadId) :
    earlier.countP (Moment.begins id) ≤ 1 := by
  induction earlier with
  | nil => exact Nat.zero_le 1
  | cons m earlier ih =>
      by_cases hbegins : m.begins id
      · obtain ⟨routine, arg, rfl⟩ := Moment.begins_iff.mp hbegins
        -- nothing was written of the thread before
        have hsilent := (run.silent_and_made_of_begin h).1
        have hnone : earlier.countP (Moment.begins id) = 0 := by
          rw [List.countP_eq_zero]
          intro m hm hagain
          obtain ⟨routine', arg', rfl⟩ := Moment.begins_iff.mp hagain
          exact hsilent _ hm rfl
        exact Nat.le_of_eq (by rw [List.countP_cons_of_pos hbegins, hnone])
      · rw [List.countP_cons_of_neg hbegins]
        exact ih ((List.suffix_cons m earlier).trans h)

/-- **What the trampoline finds**: the routine of the current thread, which it
takes and begins. -/
theorem Run.advance_of_begin (run : Run τ p)
    (h : p.control = .arriving .begin ∨ p.control = .waiting .begin) :
    ∃ c routine, p.scheduler.current = some c ∧ c.id = p.self ∧
      c.takeRoutine.1 = some (routine, c.arg) ∧ τ.Made c.id routine c.arg ∧
      p.advance =
        (p.reap.withCurrent { c with routine := none }).unblock (.begin routine c.arg) ∧
      p.advance.isOver = false := by
  have hsettled : p.isSettled = false := by
    cases h with
    | inl harriving => rw [isSettled, harriving]
    | inr hwaiting => rw [isSettled, hwaiting]
  obtain ⟨-, c, r, hp, hcontrol, -, hgoes, hwaits⟩ := run.consistent.arrives hsettled
  obtain rfl : r = .begin := by
    cases h with
    | inl harriving => exact Control.arriving.inj (hcontrol.symm.trans harriving)
    | inr hwaiting =>
        rw [hwaiting] at hcontrol
        contradiction
  have hnone : τ.outstanding c.id = none := by
    generalize τ.outstanding c.id = call at hwaits
    cases hwaits
    rfl
  have hover : p.isOver = false := by
    rw [isOver, hcontrol]
  obtain ⟨-, routine, arg, hbegins, hmade⟩ :=
    (run.orders hover).2 c .begin hp.current hcontrol hnone
  obtain ⟨hroutine, rfl⟩ : c.routine = some routine ∧ c.arg = arg := by
    cases hbegins with
    | first hroutine harg => exact ⟨hroutine, harg⟩
  refine ⟨c, routine, hp.current, hp.self_eq.symm, ?_, hmade, ?_, ?_⟩
  · rw [Thread.takeRoutine, hroutine]
    rfl
  · rw [advance, hcontrol]
    exact hp.reap.beginRoutine_eq hroutine
  · cases hp.advance_of_begins hcontrol hgoes hbegins with
    | inl hanswers => rw [isOver, hanswers.control]
    | inr hswitches =>
        obtain ⟨errno, n, s, hs⟩ := hswitches
        rw [isOver, hs.control]

/-- **Each routine runs at most once, as its own thread**, in every run.

* A thread that begins a routine has done and seen nothing before, and was not
  cancelled; the routine and the argument are those of the call that made it, of
  which there is one.
* A thread begins once at most.
* Nothing is done or seen by a thread until it has been made, and then its
  routine is the first that it sees.
* Whenever a thread is to run for the first time, the current descriptor is its
  own and holds its routine, which is taken and begun; the process goes on. -/
theorem routine_runs_once (run : Run τ p) :
    (∀ id routine arg (earlier : Transcript), .answered id (.begin routine arg) :: earlier <:+ τ →
      earlier.Silent id ∧ ¬ earlier.WasCancelled id ∧ earlier.Made id routine arg ∧
        ∀ routine' arg', τ.Made id routine' arg' → routine' = routine ∧ arg' = arg) ∧
    (∀ id, τ.countP (Moment.begins id) ≤ 1) ∧
    (∀ creator routine arg id (earlier : Transcript),
      τ.Answered creator (.create routine arg) (.thread id) earlier → earlier.Silent id) ∧
    (∀ (m : Moment) (earlier : Transcript), m :: earlier <:+ τ → earlier.Silent m.thread →
      m.thread ∈ earlier.created →
        ∃ routine arg, m = .answered m.thread (.begin routine arg)) ∧
    (p.control = .arriving .begin ∨ p.control = .waiting .begin →
      ∃ c routine, p.scheduler.current = some c ∧ c.id = p.self ∧
        c.takeRoutine.1 = some (routine, c.arg) ∧ τ.Made c.id routine c.arg ∧
        p.advance =
          (p.reap.withCurrent { c with routine := none }).unblock (.begin routine c.arg) ∧
        p.advance.isOver = false) := by
  refine ⟨?_, ?_, ?_, ?_, ?_⟩
  · intro id routine arg earlier h
    obtain ⟨hsilent, hmade⟩ := run.silent_and_made_of_begin h
    have hsuffix : earlier <:+ τ := (List.suffix_cons _ earlier).trans h
    refine ⟨hsilent, run.not_wasCancelled h, hmade, ?_⟩
    intro routine' arg' hmade'
    exact Transcript.made_unique run.nodup_created (hmade.mono hsuffix) hmade'
  · intro id
    exact run.countP_begins_le (List.suffix_refl τ) id
  · intro creator routine arg id earlier h
    exact run.silent_of_made h
  · intro m earlier h hsilent hmade
    exact run.begins_of_silent h hsilent hmade
  · exact run.advance_of_begin

/-- The signal comes as the second thread is about to begin, and it begins when
it is switched to again. -/
theorem preempted_routine_runs_once :
    let moves : List Move :=
      [.call (.init (.ofMicros 1000)), .call (.create ⟨0, .native⟩ 5), .call .mask, .call .raise,
        .call .yield, .turn, .turn, .call .yield, .turn]
    ∃ (τ : Transcript) (p : Process) (earlier : Transcript),
      ({} : Process).follow [] moves = some (τ, p) ∧
      τ = .answered ⟨2⟩ (.begin ⟨0, .native⟩ 5) :: earlier ∧ earlier.Silent ⟨2⟩ ∧
      earlier.Made ⟨2⟩ ⟨0, .native⟩ 5 ∧ τ.countP (Moment.begins ⟨2⟩) ≤ 1 := by
  intro moves
  obtain ⟨τ, p, hfollow⟩ : ∃ τ p, ({} : Process).follow [] moves = some (τ, p) := ⟨_, _, rfl⟩
  obtain ⟨earlier, hbegun⟩ :
      ∃ earlier, τ = .answered ⟨2⟩ (.begin ⟨0, .native⟩ 5) :: earlier := by
    obtain ⟨rfl, -⟩ := Prod.mk.inj (Option.some.inj hfollow)
    exact ⟨_, rfl⟩
  have h := routine_runs_once (Run.start.follow hfollow)
  obtain ⟨hsilent, -, hmade, -⟩ := h.1 ⟨2⟩ ⟨0, .native⟩ 5 earlier (hbegun ▸ List.suffix_refl τ)
  exact ⟨τ, p, earlier, hfollow, hbegun, hsilent, hmade, h.2.1 ⟨2⟩⟩

end Process

end GreenThreads
