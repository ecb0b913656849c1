import GreenThreads.Proofs.Calls

/-!
# GreenThreads.Proofs.Ledger

The books of the scheduler say the same as what is written of a run.

`Process.Ledger τ p` relates the transcript `τ` to the books of `p`:

* the threads there are are the host's and those that were made;
* the zombies have ended as it is written, in the same order;
* each thread that is ready goes on where its last call has left it.

`Process.Consistent τ p` adds whose turn it is.  Every step keeps it
(`Consistent.step`), so it holds along every run (`Run.consistent`).
-/

namespace GreenThreads

/-! ## reading a transcript -/

namespace Transcript

variable {id other : ThreadId} {τ : Transcript}

@[simp] theorem outstanding_called_self (id : ThreadId) (call : Call) (τ : Transcript) :
    outstanding id (.called id call :: τ) = some call := by
  simp [outstanding]

theorem outstanding_called_ne (h : other ≠ id) (call : Call) (τ : Transcript) :
    outstanding id (.called other call :: τ) = outstanding id τ := by
  simp [outstanding, h]

theorem outstanding_answered_ne (h : other ≠ id) (reply : Reply) (τ : Transcript) :
    outstanding id (.answered other reply :: τ) = outstanding id τ := by
  simp [outstanding, h]

/-- A call ends nobody if it is no exit, or if the initial thread makes it, or
if there are no threads yet. -/
theorem ends_called {call : Call}
    (h : call.exitValue? id = none ∨ id = .nobody ∨ id = .initial) :
    ends (.called id call :: τ) = ends τ := by
  rw [ends]
  cases hexit : call.exitValue? id with
  | none => rfl
  | some v => exact if_pos (h.resolve_left (by simp [hexit]))

theorem ends_called_exit {call : Call} (hexit : call.exitValue? id = some v)
    (hnobody : id ≠ .nobody) (hinitial : id ≠ .initial) :
    ends (.called id call :: τ) = (id, .returned v) :: ends τ := by
  rw [ends, hexit]
  simp [hnobody, hinitial]

theorem created_answered
    (h : ∀ call, outstanding id τ = some call → call.changes reply = false) :
    created (.answered id reply :: τ) = created τ := by
  simp only [created]
  split
  · next hcall =>
      have hchanges := h _ hcall
      contradiction
  · rfl

theorem ends_answered
    (h : ∀ call, outstanding id τ = some call → call.changes reply = false) :
    ends (.answered id reply :: τ) = ends τ := by
  simp only [ends]
  split
  · next hcall =>
      have hchanges := h _ hcall
      contradiction
  · rfl

theorem created_answered_create
    (h : outstanding id τ = some (.create routine arg)) (made : ThreadId) :
    created (.answered id (.thread made) :: τ) = made :: created τ := by
  simp only [created, h]

theorem ends_answered_cancel (h : outstanding id τ = some (.cancel other)) :
    ends (.answered id .done :: τ) = (other, .cancelled) :: ends τ := by
  simp only [ends, h]

end Transcript

/-! ## the books and the transcript -/

namespace Process

/-- The books say the same as what is written of the run. -/
structure Ledger (τ : Transcript) (p : Process) : Prop where
  threads : p.scheduler.ids.Perm (p.host.toList ++ τ.created)
  ends : τ.ends = p.scheduler.ended.reverse
  waits : ∀ t ∈ p.scheduler.ready, ∀ s, p.saved.lookup t.id = some s →
    Waits p.scheduler.ended (τ.outstanding t.id) s.resumption
  fresh : ∀ id : ThreadId, p.scheduler.nextId.val ≤ id.val → τ.outstanding id = none

namespace Ledger

variable {τ : Transcript} {p q : Process} {c n : Thread} {r : Resumption} {s : Saved}

theorem congr (h : Ledger τ p) (hq : p.SameBooks q) : Ledger τ q := by
  obtain ⟨hscheduler, hpool, hhost, hstrand, hsaved⟩ := hq
  constructor
  · rw [hscheduler, hhost]; exact h.threads
  · rw [hscheduler]; exact h.ends
  · rw [hscheduler, hsaved]; exact h.waits
  · rw [hscheduler]; exact h.fresh

/-- What is written of a thread that has ended is what its descriptor tells. -/
theorem mem_ends_iff {id : ThreadId} (h : Ledger τ p) :
    (id, status) ∈ τ.ends ↔
      ∃ t ∈ p.scheduler.zombies, t.id = id ∧ t.exitStatus = some status := by
  rw [h.ends, List.mem_reverse, Scheduler.mem_ended_iff]

theorem withCurrent (h : Ledger τ p) (hc : p.scheduler.current = some c) (hid : t.id = c.id) :
    Ledger τ (p.withCurrent t) where
  threads := by rw [ids_withCurrent hc hid]; exact h.threads
  ends := h.ends
  waits := h.waits
  fresh := h.fresh

theorem reap (h : Ledger τ p) : Ledger τ p.reap := ⟨h.threads, h.ends, h.waits, h.fresh⟩

/-- Something more is written about the current thread, but nothing of threads
that were made or have ended. -/
theorem write (h : Ledger τ p) (hp : p.Books c)
    (hother : ∀ id, id ≠ c.id → τ'.outstanding id = τ.outstanding id)
    (hcreated : τ'.created = τ.created) (hends : τ'.ends = τ.ends) : Ledger τ' p := by
  constructor
  · rw [hcreated]; exact h.threads
  · rw [hends]; exact h.ends
  · intro t ht
    have hne : t.id ≠ c.id := (hp.placed.current_ne hp.current ht).symm
    rw [hother t.id hne]
    exact h.waits t ht
  · intro id hid
    rw [hother id (hp.ne_of_nextId_le hid).symm]
    exact h.fresh id hid

theorem called {call : Call} (h : Ledger τ p) (hp : p.Books c)
    (hexit : call.exitValue? c.id = none ∨ c.id = .initial) :
    Ledger (.called c.id call :: τ) p :=
  h.write hp (fun _ hne => Transcript.outstanding_called_ne hne.symm call τ) rfl
    (Transcript.ends_called (hexit.imp_right .inr))

theorem answered (h : Ledger τ p) (hp : p.Books c)
    (hchanges : ∀ call, τ.outstanding c.id = some call → call.changes reply = false) :
    Ledger (.answered c.id reply :: τ) p :=
  h.write hp (fun _ hne => Transcript.outstanding_answered_ne hne.symm reply τ)
    (Transcript.created_answered hchanges) (Transcript.ends_answered hchanges)

theorem handsOver (h : Ledger τ p) (hp : p.Books c) (hq : p.HandsOver r n s q)
    (hwaits : Waits p.scheduler.ended (τ.outstanding c.id) r) :
    Ledger τ q ∧ Waits q.scheduler.ended (τ.outstanding n.id) s.resumption := by
  obtain ⟨rest, hr, heq⟩ := hp.exists_of_handsOver hq
  have hended : q.scheduler.ended = p.scheduler.ended := by rw [heq]; rfl
  have hnext : q.scheduler.nextId = p.scheduler.nextId := by rw [heq]
  have hids := Scheduler.ids_rotate hp.placed
  rw [← hq.scheduler] at hids
  have hn := h.waits n (by simp [hr]) s hq.loaded
  rw [hended]
  refine ⟨?_, hn⟩
  constructor
  · rw [hq.host]; exact hids.trans h.threads
  · rw [hended]; exact h.ends
  · intro t ht x hx
    rw [hended]
    cases hp.lookup_of_handsOver hq ht with
    | inl hold => exact h.waits t hold.1 x (hold.2.symm.trans hx)
    | inr hlast =>
        obtain ⟨rfl, hlookup⟩ := hlast
        obtain rfl := Option.some.inj (hlookup.symm.trans hx)
        exact hwaits
  · rw [hnext]; exact h.fresh

/-- The exit of a thread is written down when it makes the call. -/
theorem retires {call : Call} (h : Ledger τ p) (hp : p.Books c) (hq : p.Retires v n s q)
    (hexit : call.exitValue? c.id = some v) (hinitial : c.id ≠ .initial) :
    Ledger (.called c.id call :: τ) q ∧
      Waits q.scheduler.ended (Transcript.outstanding n.id (.called c.id call :: τ))
        s.resumption := by
  obtain ⟨rest, hr, heq⟩ := hp.exists_of_retires hq
  have hended : q.scheduler.ended = p.scheduler.ended ++ [(c.id, .returned v)] :=
    Scheduler.ended_append (t := c.finish v) (by rw [heq]) rfl
  have hsub : p.scheduler.ended ⊆ q.scheduler.ended := by
    rw [hended]
    exact List.subset_append_left _ _
  have hnext : q.scheduler.nextId = p.scheduler.nextId := by rw [heq]
  have hids := Scheduler.ids_retire hp.placed v
  rw [← hq.scheduler] at hids
  have hother : ∀ t ∈ p.scheduler.ready,
      Transcript.outstanding t.id (.called c.id call :: τ) = τ.outstanding t.id := fun t ht =>
    Transcript.outstanding_called_ne (hp.placed.current_ne hp.current ht) call τ
  have hn : n ∈ p.scheduler.ready := by simp [hr]
  constructor
  · constructor
    · rw [hq.host]; exact hids.trans h.threads
    · rw [Transcript.ends_called_exit hexit hp.id_ne_nobody hinitial, h.ends, hended,
        List.reverse_append]
      rfl
    · intro t ht x hx
      obtain ⟨hready, hlookup⟩ := hp.lookup_of_retires hq ht
      rw [hother t hready]
      exact (h.waits t hready x (hlookup.symm.trans hx)).mono hsub
    · intro id hid
      rw [hnext] at hid
      rw [Transcript.outstanding_called_ne (hp.ne_of_nextId_le hid)]
      exact h.fresh id hid
  · rw [hother n hn]
    exact (h.waits n hn s hq.loaded).mono hsub

/-- A thread is written down as made when the call has returned. -/
theorem creates (h : Ledger τ p) (hp : p.Books c) (hq : p.Creates routine arg stack q)
    (hcall : τ.outstanding c.id = some (.create routine arg)) :
    Ledger (.answered c.id (.thread p.scheduler.nextId) :: τ) q := by
  have hended : q.scheduler.ended = p.scheduler.ended := by rw [hq.scheduler]; rfl
  have hids := Scheduler.ids_add p.scheduler.allocateId.2
    (.create p.scheduler.nextId routine arg stack)
  rw [← hq.scheduler] at hids
  constructor
  · rw [hq.host, Transcript.created_answered_create hcall]
    apply hids.trans
    apply (h.threads.append_right _).trans
    rw [List.append_assoc]
    exact (List.perm_append_singleton _ _).append_left _
  · rw [hended, ← h.ends]
    simp only [Transcript.ends, hcall]
  · intro t ht x hx
    rw [hended]
    cases hp.lookup_of_creates hq ht with
    | inl hold =>
        have hne : c.id ≠ t.id := hp.placed.current_ne hp.current hold.1
        rw [Transcript.outstanding_answered_ne hne]
        exact h.waits t hold.1 x (hold.2.symm.trans hx)
    | inr hlast =>
        obtain ⟨rfl, hlookup⟩ := hlast
        obtain rfl := Option.some.inj (hlookup.symm.trans hx)
        have hne : c.id ≠ p.scheduler.nextId := hp.ne_of_nextId_le (Nat.le_refl _)
        rw [Thread.create, Transcript.outstanding_answered_ne hne, h.fresh _ (Nat.le_refl _)]
        exact .begun
  · intro id hid
    have hle : p.scheduler.nextId.val ≤ id.val := by
      rw [hq.scheduler] at hid
      exact Nat.le_of_succ_le hid
    rw [Transcript.outstanding_answered_ne (hp.ne_of_nextId_le hle)]
    exact h.fresh id hle

/-- A thread is written down as cancelled when the call has returned. -/
theorem cancels {id : ThreadId} (h : Ledger τ p) (hp : p.Books c) (hq : p.Cancels id freed q)
    (hcall : τ.outstanding c.id = some (.cancel id)) :
    Ledger (.answered c.id .done :: τ) q := by
  obtain ⟨front, t, back, hr, rfl, -, heq⟩ := Scheduler.exists_of_cancel hp.placed hq.scheduler
  have hended : q.scheduler.ended = p.scheduler.ended ++ [(t.id, .cancelled)] :=
    Scheduler.ended_append (t := t.cancel) (by rw [heq]) rfl
  have hnext : q.scheduler.nextId = p.scheduler.nextId := by rw [heq]
  constructor
  · rw [hq.host]
    simp only [Transcript.created, hcall]
    exact (Scheduler.ids_cancel hp.placed hq.scheduler).trans h.threads
  · rw [Transcript.ends_answered_cancel hcall, h.ends, hended, List.reverse_append]
    rfl
  · intro a ha x hx
    obtain ⟨hready, hlookup⟩ := hp.lookup_of_cancels hq ha
    have hne : c.id ≠ a.id := hp.placed.current_ne hp.current hready
    rw [Transcript.outstanding_answered_ne hne, hended]
    exact (h.waits a hready x (hlookup.symm.trans hx)).mono (List.subset_append_left _ _)
  · intro id hid
    rw [hnext] at hid
    rw [Transcript.outstanding_answered_ne (hp.ne_of_nextId_le hid)]
    exact h.fresh id hid

/-- Before the start nothing that is written concerns a thread. -/
theorem early (h : Ledger τ p) (hp : p.Unstarted) (hid : ∀ id : ThreadId,
    id ≠ .nobody → τ'.outstanding id = τ.outstanding id)
    (hcreated : τ'.created = τ.created) (hends : τ'.ends = τ.ends) : Ledger τ' p := by
  have hready : p.scheduler.ready = [] := by rw [hp.scheduler]
  constructor
  · rw [hcreated]; exact h.threads
  · rw [hends]; exact h.ends
  · simp [hready]
  · intro id hle
    have hne : id ≠ .nobody := by
      intro heq
      have hpos := hp.nextId_pos
      rw [heq] at hle
      exact absurd (Nat.le_trans hpos hle) (by decide)
    rw [hid id hne]
    exact h.fresh id hle

theorem allocateId (h : Ledger τ p) (control : Control) :
    Ledger τ { p with scheduler := p.scheduler.allocateId.2, control } where
  threads := h.threads
  ends := h.ends
  waits := h.waits
  fresh id hid := h.fresh id (Nat.le_of_succ_le hid)

theorem created_eq_nil (h : Ledger τ p) (hp : p.Unstarted) : τ.created = [] := by
  have hids : p.scheduler.ids = [] := by rw [hp.scheduler]; rfl
  have hcreated := h.threads
  rwa [hids, hp.host, Option.toList_none, List.nil_append, List.nil_perm] at hcreated

theorem starts (h : Ledger τ p) (hp : p.Unstarted) (hq : p.Starts size q) : Ledger τ q := by
  have hended : p.scheduler.ended = [] := by rw [hp.scheduler]; rfl
  have hcreated := h.created_eq_nil hp
  have hends := h.ends
  constructor
  · rw [hcreated, hq.scheduler, hq.host, Scheduler.ids_start]
    exact .refl _
  · rw [hends, hended, hq.scheduler]
    rfl
  · rw [hq.scheduler]
    simp [Scheduler.start]
  · intro id hid
    rw [hq.scheduler] at hid
    exact h.fresh id (Nat.le_of_succ_le hid)

/-- The thread that starts sees a reply to a call that nobody has made in its
name. -/
theorem starts_answered (h : Ledger τ p) (hp : p.Unstarted) (hq : p.Starts size q) :
    Ledger (.answered p.scheduler.nextId .done :: τ) q := by
  have hfresh : τ.outstanding p.scheduler.nextId = none := h.fresh _ (Nat.le_refl _)
  have hmade : ∀ made, τ.outstanding p.scheduler.nextId = some made →
      made.changes .done = false := by
    intro made hmade
    rw [hfresh] at hmade
    contradiction
  have hsame : ∀ id, id ≠ .nobody →
      Transcript.outstanding id (.answered p.scheduler.nextId .done :: τ) = τ.outstanding id := by
    intro id _
    by_cases hid : p.scheduler.nextId = id
    · subst hid
      rw [hfresh]
      exact if_pos rfl
    · exact Transcript.outstanding_answered_ne hid ..
  have hearly : Ledger (.answered p.scheduler.nextId .done :: τ) p :=
    h.early hp hsame (Transcript.created_answered hmade) (Transcript.ends_answered hmade)
  exact hearly.starts hp hq

end Ledger

/-! ## whose turn it is -/

/-- Between two steps of a run a process is in one of four states. -/
inductive Consistent (τ : Transcript) (p : Process) : Prop where
  | early (hp : p.Unstarted) (hcontrol : p.control = .client reply)
      (quiet : p.signal.arrives = false) (hl : Ledger τ p)
  | idle (hp : p.Idle c) (hcontrol : p.control = .client reply) (hl : Ledger τ p)
  | arriving (hp : p.Books c) (hcontrol : p.control = .arriving r)
      (hmasked : p.signal.masked = true) (hgoes : c.GoesOn p.scheduler.ids r)
      (hwaits : Waits p.scheduler.ended (τ.outstanding c.id) r) (hl : Ledger τ p)
  | stopped (h : p.control = .over outcome)

namespace Consistent

variable {τ : Transcript} {p q : Process} {c : Thread}

theorem of_proceeds {call : Option Call} (hp : p.Books c) (hretired : p.scheduler.retired = [])
    (hl : Ledger τ p) (hcall : τ.outstanding c.id = call) (hq : p.Proceeds c call q) :
    Consistent (q.seen τ) q := by
  cases hq with
  | answered hdue hq =>
      have hactive : (p.withCurrent c.active).Books c.active := hp.setCurrent rfl rfl rfl
      have hbooks := hactive.congr hq.books
      have hledger := (hl.withCurrent (t := c.active) hp.current rfl).congr hq.books
      have hnone : q.scheduler.retired = [] := by
        rw [hq.books.scheduler]
        exact hretired
      rw [seen_client hq.control, hbooks.self_eq]
      refine .idle ⟨hbooks, rfl, hnone, hq.quiet⟩ hq.control (hledger.answered hbooks ?_)
      intro made hmade
      obtain rfl := hcall.symm.trans hmade
      exact hdue.changes_eq_false
  | @paused r n s hwaits hr hgoes hq =>
      have hbooks : (p.withCurrent (c.pausedAt r)).Books (c.pausedAt r) :=
        hp.setCurrent rfl rfl rfl
      have hledger := hl.withCurrent (t := c.pausedAt r) hp.current rfl
      rw [← ids_withCurrent (t := c.pausedAt r) hp.current rfl] at hgoes
      obtain ⟨hn, hgoes', hmasked⟩ := hbooks.handsOver hq hgoes
      obtain ⟨hl', hwaits'⟩ := hledger.handsOver hbooks hq (hcall.symm ▸ hwaits)
      rw [seen_arriving hq.control]
      exact .arriving hn hq.control (hq.masked.trans hmasked) hgoes' hwaits' hl'
  | stopped h _ => exact .stopped h

theorem of_callEffect {call : Call} (hp : p.Idle c) (hl : Ledger τ p)
    (hq : p.CallEffect c call q) : Consistent (q.seen (.called c.id call :: τ)) q := by
  have hcall : Transcript.outstanding c.id (.called c.id call :: τ) = some call :=
    Transcript.outstanding_called_self ..
  cases hq with
  | answered hexit hreply hq =>
      have hbooks := hp.books.congr hq.books
      have hledger := (hl.called hp.books (.inl hexit)).congr hq.books
      have hnone : q.scheduler.retired = [] := by rw [hq.books.scheduler, hp.retired]
      rw [seen_client hq.control, hbooks.self_eq]
      refine .idle ⟨hbooks, hp.active, hnone, hq.quiet⟩ hq.control (hledger.answered hbooks ?_)
      intro made hmade
      obtain rfl := Option.some.inj (hcall.symm.trans hmade)
      exact Call.changes_of_uneventful hreply
  | proceeds hexit hq => exact of_proceeds hp.books hp.retired (hl.called hp.books hexit) hcall hq
  | creates hmake hq =>
      subst hmake
      have hbooks := hp.books.creates hq
      have hledger := (hl.called hp.books (.inl rfl)).creates hp.books hq hcall
      have hnone : q.scheduler.retired = [] := by rw [hq.scheduler]; exact hp.retired
      rw [seen_client hq.control, hbooks.self_eq]
      exact .idle ⟨hbooks, hp.active, hnone, hq.quiet⟩ hq.control hledger
  | cancels hmake hne hq =>
      subst hmake
      have hexit : (Call.cancel _).exitValue? c.id = none := if_neg hne
      have hbooks := hp.books.cancels hq
      have hledger := (hl.called hp.books (.inl hexit)).cancels hp.books hq hcall
      have hnone : q.scheduler.retired = [] := by
        obtain ⟨_, _, _, -, -, -, heq⟩ :=
          Scheduler.exists_of_cancel hp.books.placed hq.scheduler
        rw [heq]
        exact hp.retired
      rw [seen_client hq.control, hbooks.self_eq]
      exact .idle ⟨hbooks, hp.active, hnone, hq.quiet⟩ hq.control hledger
  | retires hexit hinitial hq =>
      obtain ⟨hbooks, hgoes, hmasked⟩ := hp.books.retires hq
      obtain ⟨hledger, hwaits⟩ := hl.retires hp.books hq hexit hinitial
      rw [seen_arriving hq.control]
      exact .arriving hbooks hq.control (hq.masked.trans hmasked) hgoes hwaits hledger
  | stopped h _ => exact .stopped h

theorem of_earlyEffect {call : Call} (hp : p.Unstarted) (hl : Ledger τ p)
    (hq : p.EarlyEffect call q) : Consistent (q.seen (.called .nobody call :: τ)) q := by
  have hcall : Transcript.outstanding .nobody (.called .nobody call :: τ) = some call :=
    Transcript.outstanding_called_self ..
  have hcalled : Ledger (.called .nobody call :: τ) p :=
    hl.early hp (fun _ hne => Transcript.outstanding_called_ne hne.symm call τ) rfl
      (Transcript.ends_called (.inr (.inl rfl)))
  have hwritten : ∀ reply, call.changes reply = false →
      Ledger (.answered .nobody reply :: .called .nobody call :: τ) p := by
    intro reply hchanges
    have hmade : ∀ made, Transcript.outstanding .nobody (.called .nobody call :: τ) = some made →
        made.changes reply = false := by
      intro made hmade
      obtain rfl := Option.some.inj (hcall.symm.trans hmade)
      exact hchanges
    exact hcalled.early hp (fun _ hne => Transcript.outstanding_answered_ne hne.symm reply _)
      (Transcript.created_answered hmade) (Transcript.ends_answered hmade)
  cases hq with
  | answered hreply hq =>
      have hearly := hp.congr hq.books
      have hledger := (hwritten _ (Call.changes_of_uneventful hreply)).congr hq.books
      rw [seen_client hq.control, hearly.self_eq]
      exact .early hearly hq.control hq.quiet hledger
  | @overflowed _ cause hinit hquiet hq =>
      subst hinit hq
      have hledger := (hwritten (.overflowed cause) rfl).allocateId (.client (.overflowed cause))
      have hearly := hp.allocateId (.client (.overflowed cause))
      rw [seen_client rfl, hearly.self_eq]
      exact .early hearly rfl hquiet hledger
  | starts _ hq hcontrol hquiet =>
      have hbooks := hp.starts hq
      have hnone : q.scheduler.retired = [] := by rw [hq.scheduler]; rfl
      have hledger := hcalled.starts_answered hp hq
      rw [seen_client hcontrol, hbooks.self_eq]
      exact .idle ⟨hbooks, rfl, hnone, hquiet⟩ hcontrol hledger
  | stopped h _ => exact .stopped h

/-- Client code runs before the start, or as the current thread. -/
theorem client (h : Consistent τ p) (hclient : p.control = .client reply) :
    Ledger τ p ∧ (p.Unstarted ∧ p.signal.arrives = false ∨ ∃ c, p.Idle c) := by
  cases h with
  | early hp _ hquiet hl => exact ⟨hl, .inl ⟨hp, hquiet⟩⟩
  | idle hp _ hl => exact ⟨hl, .inr ⟨_, hp⟩⟩
  | arriving _ hcontrol => simp [hclient] at hcontrol
  | stopped hover => simp [hclient] at hover

/-- While the process goes on, its books agree or nothing was started. -/
theorem books (h : Consistent τ p) (hover : p.isOver = false) :
    Ledger τ p ∧ (p.Unstarted ∨ ∃ c, p.Books c) := by
  cases h with
  | early hp _ _ hl => exact ⟨hl, .inl hp⟩
  | idle hp _ hl => exact ⟨hl, .inr ⟨_, hp.books⟩⟩
  | arriving hp _ _ _ _ hl => exact ⟨hl, .inr ⟨_, hp⟩⟩
  | stopped hstopped => simp [isOver, hstopped] at hover

/-- When the library has the processor, the current thread is to go on where it
was left. -/
theorem arrives (h : Consistent τ p) (hsettled : p.isSettled = false) :
    Ledger τ p ∧ ∃ c r, p.Books c ∧ p.control = .arriving r ∧ p.signal.masked = true ∧
      c.GoesOn p.scheduler.ids r ∧ Waits p.scheduler.ended (τ.outstanding c.id) r := by
  cases h with
  | early _ hcontrol => simp [isSettled, hcontrol] at hsettled
  | idle _ hcontrol => simp [isSettled, hcontrol] at hsettled
  | arriving hp hcontrol hmasked hgoes hwaits hl =>
      exact ⟨hl, _, _, hp, hcontrol, hmasked, hgoes, hwaits⟩
  | stopped hover => simp [isSettled, hover] at hsettled

/-- In a turn the current thread goes on with the call that it has made. -/
theorem turn (h : Consistent τ p) (hsettled : p.isSettled = false) :
    Ledger τ p ∧ ∃ c, p.Books c ∧ p.reap.Proceeds c (τ.outstanding c.id) p.advance := by
  obtain ⟨hl, c, r, hp, hcontrol, hmasked, hgoes, hwaits⟩ := h.arrives hsettled
  exact ⟨hl, c, hp, hp.advances hcontrol hmasked hgoes hwaits⟩

/-- **Every step keeps the books and the transcript in agreement.** -/
theorem step (h : Consistent τ p) (hstep : p.Step move q) :
    Consistent (p.transcribe move q τ) q := by
  cases hstep with
  | call hclient call =>
      obtain ⟨hl, ⟨hp, hquiet⟩ | ⟨c, hp⟩⟩ := h.client hclient
      · rw [transcribe, hp.self_eq]
        exact of_earlyEffect hp hl (hp.performs hquiet call)
      · rw [transcribe, hp.books.self_eq]
        exact of_callEffect hp hl (hp.performs call)
  | turn hsettled =>
      obtain ⟨hl, c, hp, hq⟩ := h.turn hsettled
      exact of_proceeds hp.reap rfl hl.reap rfl hq
  | listen =>
      have hsame : p.SameBooks { p with journal := [] } := sameBooks_with ..
      cases h with
      | early hp hcontrol hquiet hl =>
          exact .early (hp.congr hsame) hcontrol hquiet (hl.congr hsame)
      | idle hp hcontrol hl =>
          exact .idle ⟨hp.books.congr hsame, hp.active, hp.retired, hp.quiet⟩ hcontrol
            (hl.congr hsame)
      | arriving hp hcontrol hmasked hgoes hwaits hl =>
          exact .arriving (hp.congr hsame) hcontrol hmasked hgoes hwaits (hl.congr hsame)
      | stopped hover => exact .stopped hover

end Consistent

/-- A new process has nothing to account for. -/
theorem ledger_new (host : Host) : Ledger [] { pool := { host } } where
  threads := .nil
  ends := rfl
  waits := by simp
  fresh _ _ := rfl

/-- Books and transcript agree along every run. -/
theorem Run.consistent {τ : Transcript} {p : Process} (run : Run τ p) : Consistent τ p := by
  induction run with
  | start => exact .early (unstarted_new _) rfl rfl (ledger_new _)
  | step run h ih => exact ih.step h

end Process

end GreenThreads
