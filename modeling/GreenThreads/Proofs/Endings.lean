import GreenThreads.Proofs.Join
import GreenThreads.Proofs.Masks

/-!
# GreenThreads.Proofs.Endings

The process ends when it should.

The library ends the process in two ways: by the exit of a thread that is alone
when it exits, and by a turn of the initial thread, which waits in its exit
until it is alone.  Either way nobody else lives (`Run.of_finishes`).  Any other
exit ends its caller and nothing more (`Departs.ends_caller_only`).

`Finishes` tells by the journal that the library has ended the process.  The
host, a panic and client code can end it too, but none of them says so.
-/

namespace GreenThreads

namespace Process

/-- The process is over, and has said last that it ends with `v`. -/
def Finishes (p : Process) (v : Word) (q : Process) : Prop :=
  q.isOver = true ∧ ∃ told, q.journal = p.journal ++ (told ++ [.notice (.ending v), .flush])

/-- The running thread, which is not the initial one, is to end with `v` by its
own `call`. -/
structure Departs (p : Process) (call : Call) (v : Word) : Prop where
  client : ∃ reply, p.control = .client reply
  exit : call.exitValue? p.self = some v
  initial : p.self ≠ .initial

variable {τ : Transcript} {p p' q : Process} {c : Thread} {move : Move} {call : Call} {v w : Word}

/-! ## what the journal says last -/

theorem journal_terminate (p : Process) (v : Word) :
    (p.terminate v).journal = p.journal ++ [.notice (.ending v), .flush] := by
  simp [terminate, note, tell, stop]

theorem finishes_terminate (h : p'.journal = p.journal ++ told) (v : Word) :
    p.Finishes v (p'.terminate v) := by
  refine ⟨rfl, told, ?_⟩
  rw [journal_terminate, h, List.append_assoc]

namespace Finishes

theorem suffix (h : p.Finishes v q) (hq : q.journal = p.journal ++ said) :
    [.notice (.ending v), .flush] <:+ said := by
  obtain ⟨-, told, htold⟩ := h
  exact ⟨told, List.append_cancel_left (htold.symm.trans hq)⟩

theorem value_eq (h : p.Finishes v (p'.terminate w)) (hp' : p'.journal = p.journal ++ told) :
    w = v := by
  have hsaid := journal_terminate p' w
  rw [hp', List.append_assoc] at hsaid
  obtain ⟨told', htold'⟩ := h.suffix hsaid
  have hlast := (List.append_inj' htold' rfl).2
  simpa using hlast.symm

theorem not_die {failure : Fatal} (hp' : p'.journal = p.journal) :
    ¬ p.Finishes v (p'.die failure) := by
  intro h
  have hsaid : (p'.die failure).journal =
      p.journal ++ [.notice (.fatal failure), .complaint failure, .flush] := by
    simp [die, note, tell, stop, hp']
  have hlast := h.suffix hsaid
  simp [List.suffix_cons_iff] at hlast

/-- Client code that ends the process on the spot does not have the library say
so. -/
theorem not_isFatal (hfatal : call.isFatal = true) : ¬ p.Finishes v (p.perform call) := by
  intro h
  cases call with
  | panic =>
      have hsaid : (p.perform .panic).journal =
          p.journal ++ [.notice (.panicked p.scheduler.currentId), .flush] := by
        simp [perform, panic, note, tell, abort, stop, block]
      have hlast := h.suffix hsaid
      simp [List.suffix_cons_iff] at hlast
  | abort | quit =>
      have hlast := h.suffix (List.append_nil p.journal).symm
      simp at hlast
  | _ => contradiction

end Finishes

/-! ## who ends the process -/

/-- A call that ends the process is the exit of a thread that is alone. -/
theorem Idle.of_finishes (h : p.Idle c) (hq : p.Finishes v (p.perform call)) :
    call.exitValue? c.id = some v ∧ p.scheduler.ready = [] ∧
      (p.perform call).control = .over (.exit v.lowByte) ∧
      (p.perform call).scheduler = p.scheduler := by
  cases hexit : call.exitValue? c.id with
  | none =>
      exfalso
      cases hfatal : call.isFatal with
      | true => exact Finishes.not_isFatal hfatal hq
      | false =>
          cases h.maskOf?_perform call hexit hfatal with
          | inl hmask =>
              rw [maskOf?_of_isOver hq.1] at hmask
              contradiction
          | inr hdied =>
              obtain ⟨e, he⟩ := hdied
              rw [he] at hq
              exact Finishes.not_die rfl hq
  | some w =>
      rw [h.perform_of_exitValue hexit] at hq ⊢
      cases hr : p.scheduler.ready with
      | nil =>
          obtain ⟨told, htold⟩ := h.exit_of_alone hr w
          rw [htold] at hq ⊢
          obtain rfl := hq.value_eq rfl
          exact ⟨rfl, rfl, rfl, rfl⟩
      | cons n rest =>
          have hover := hq.1
          by_cases hinitial : c.id = .initial
          · obtain ⟨s, hs⟩ := h.handsOver_exit hinitial hr w
            simp [isOver, hs.control] at hover
          · obtain ⟨s, hs⟩ := h.retires_exit hinitial hr w
            simp [isOver, hs.control] at hover

/-- The exit of a thread that is alone ends the process. -/
theorem Idle.finishes (h : p.Idle c) (hexit : call.exitValue? c.id = some v)
    (hr : p.scheduler.ready = []) : p.Finishes v (p.perform call) := by
  obtain ⟨told, htold⟩ := h.exit_of_alone hr v
  rw [h.perform_of_exitValue hexit, htold]
  exact finishes_terminate rfl v

/-- A turn that ends the process is that of a thread that waits to end it, and
is alone now. -/
theorem Books.of_finishes (h : p.Books c) (hcontrol : p.control = .arriving r)
    (hmasked : p.signal.masked = true) (hgoes : c.GoesOn p.scheduler.ids r)
    (hq : p.Finishes v p.advance) :
    r = .exiting v ∧ p.scheduler.ready = [] ∧ p.advance.control = .over (.exit v.lowByte) ∧
      p.advance.scheduler = p.reap.scheduler := by
  -- a thread that is not to end the process goes on
  have hmask := h.maskOf?_advance hcontrol hmasked hgoes
  rw [maskOf?_of_isOver hq.1, maskOf?_arriving hcontrol, if_pos h.self_eq.symm] at hmask
  cases r with
  | exiting value =>
      have hadvance : p.advance = p.reap.awaitOthers value := by
        rw [advance, hcontrol]
        rfl
      rw [hadvance] at hq ⊢
      cases hr : p.scheduler.ready with
      | nil =>
          have hready : p.reap.scheduler.ready = [] := hr
          rw [awaitOthers_of_alone hready] at hq ⊢
          obtain rfl := hq.value_eq (List.append_nil p.journal).symm
          exact ⟨rfl, rfl, rfl, rfl⟩
      | cons n rest =>
          have hready : p.reap.scheduler.ready = n :: rest := hr
          obtain ⟨s, hs⟩ := h.reap.handsOver_awaitOthers hmasked hready value
          have hover := hq.1
          simp [isOver, hs.control] at hover
  | _ => contradiction

/-! ## who is left -/

/-- A thread is alone when no other one is ready. -/
theorem Books.alone_iff (h : p.Books c) :
    (∀ t ∈ p.scheduler.threads, t.id ≠ c.id → t.state ≠ .running) ↔ p.scheduler.ready = [] := by
  constructor
  · intro halone
    rw [List.eq_nil_iff_forall_not_mem]
    intro t ht
    have hmem : t ∈ p.scheduler.threads :=
      List.mem_append_left _ (List.mem_append_right _ ht)
    exact halone t hmem (h.placed.current_ne h.current ht).symm
      (Thread.isRunnable_iff.mp (h.placed.ready ht)).1
  · intro hr t ht hne hrunning
    rw [Scheduler.threads_eq, h.living_eq, hr] at ht
    cases List.mem_append.mp ht with
    | inl hc => exact hne (congrArg Thread.id (List.mem_singleton.mp hc))
    | inr hzombie =>
        cases (h.placed.ended t hzombie).state with
        | inl hdone => simp [hrunning] at hdone
        | inr hcancelled => simp [hrunning] at hcancelled

/-- What is written of the others when a thread is alone: they have all ended. -/
theorem Ledger.exists_end (hl : Ledger τ p) (h : p.Books c) (hr : p.scheduler.ready = [])
    {id : ThreadId} (hid : id ∈ p.host.toList ++ τ.created) (hne : id ≠ c.id) :
    ∃ status, (id, status) ∈ τ.ends := by
  have hmem := (Scheduler.mem_ids_iff h.current).mp (hl.threads.symm.subset hid)
  rw [hr, List.nil_append] at hmem
  obtain ⟨t, ht, rfl⟩ := hmem.resolve_left hne
  obtain ⟨status, hstatus⟩ := (h.placed.ended t ht).exists_exitStatus
  exact ⟨status, hl.mem_ends_iff.mpr ⟨t, ht, rfl, hstatus⟩⟩

/-- The initial thread lives until it is cancelled. -/
theorem Ledger.running_of_initial (hl : Ledger τ p) (h : p.Books c)
    (ht : t ∈ p.scheduler.threads) (hinitial : t.id = .initial) (hstate : t.state ≠ .cancelled) :
    t.state = .running := by
  rw [Scheduler.threads_eq] at ht
  cases List.mem_append.mp ht with
  | inl hliving => exact (Thread.isRunnable_iff.mp (h.placed.living t hliving)).1
  | inr hzombie =>
      exfalso
      have hdone := (h.placed.ended t hzombie).state.resolve_right hstate
      have hstatus : t.exitStatus = some (.returned t.value) := by rw [Thread.exitStatus, hdone]
      have hended := hl.mem_ends_iff.mpr ⟨t, hzombie, rfl, hstatus⟩
      exact (Transcript.mem_ends_returned.mp hended).2.1 hinitial

/-! ## along a run -/

/-- **Whoever ends the process is alone**, and was to end with that value. -/
theorem Run.of_finishes (run : Run τ p) (hinit : p.isInitialised = true) (h : p.Step move q)
    (hq : p.Finishes v q) :
    ∃ c, p.Books c ∧ Ledger τ p ∧ p.scheduler.ready = [] ∧
      q.scheduler.threads = p.scheduler.threads ∧ q.scheduler.ready = [] ∧
      q.control = .over (.exit v.lowByte) ∧
      ∃ call, (p.transcribe move q τ).outstanding p.self = some call ∧
        call.exitValue? p.self = some v := by
  cases h with
  | call hclient call =>
      obtain ⟨hl, ⟨hp, -⟩ | ⟨c, hp⟩⟩ := run.consistent.client hclient
      · simp [hp.isInitialised_eq] at hinit
      · obtain ⟨hexit, hr, hcontrol, hscheduler⟩ := hp.of_finishes hq
        refine ⟨c, hp.books, hl, hr, by rw [hscheduler], by rw [hscheduler, hr], hcontrol, call, ?_,
          hp.books.self_eq ▸ hexit⟩
        rw [transcribe, seen, hcontrol]
        exact Transcript.outstanding_called_self ..
  | turn hsettled =>
      obtain ⟨hl, c, r, hp, hcontrol, hmasked, hgoes, hwaits⟩ := run.consistent.arrives hsettled
      obtain ⟨rfl, hr, hover, hscheduler⟩ := hp.of_finishes hcontrol hmasked hgoes hq
      have hinitial : c.id = .initial := hgoes.initial v rfl
      have hself : p.self = .initial := hp.self_eq.trans hinitial
      rw [hinitial] at hwaits
      generalize hcall : τ.outstanding .initial = outstanding at hwaits
      cases hwaits with
      | @exiting _ call hexit =>
          refine ⟨c, hp, hl, hr, by rw [hscheduler]; rfl, by rw [hscheduler]; exact hr, hover,
            call, ?_, hself ▸ hexit⟩
          rw [transcribe, seen, hover, hself]
          exact hcall
  | listen =>
      obtain ⟨-, told, htold⟩ := hq
      simp at htold

namespace Departs

/-- A thread that departs is the current one. -/
theorem idle (h : p.Departs call v) (run : Run τ p) (hinit : p.isInitialised = true) :
    Ledger τ p ∧ ∃ c, p.Idle c ∧ c.id = p.self := by
  obtain ⟨reply, hclient⟩ := h.client
  obtain ⟨hl, ⟨hp, -⟩ | ⟨c, hp⟩⟩ := run.consistent.client hclient
  · simp [hp.isInitialised_eq] at hinit
  · exact ⟨hl, c, hp, hp.books.self_eq.symm⟩

theorem retires (h : p.Departs call v) (hp : p.Idle c) (hid : c.id = p.self)
    (hr : p.scheduler.ready = n :: rest) : ∃ s, p.Retires v n s (p.perform call) := by
  rw [hp.perform_of_exitValue (hid ▸ h.exit)]
  exact hp.retires_exit (hid ▸ h.initial) hr v

/-- A thread that departs ends the process if it is alone, and nothing but
itself otherwise. -/
theorem isOver_iff (h : p.Departs call v) (hp : p.Idle c) (hid : c.id = p.self) :
    (p.perform call).isOver = true ↔ p.scheduler.ready = [] := by
  cases hr : p.scheduler.ready with
  | nil => simp [(hp.finishes (hid ▸ h.exit) hr).1]
  | cons n rest =>
      obtain ⟨s, hs⟩ := h.retires hp hid hr
      simp [isOver, hs.control]

theorem ends_caller_only (h : p.Departs call v) (hp : p.Idle c) (hid : c.id = p.self)
    (hover : (p.perform call).isOver = false) :
    ∃ n rest, p.scheduler.ready = n :: rest ∧ (p.perform call).pool = p.pool ∧
      (p.perform call).host = p.host ∧
      (p.perform call).scheduler =
        { p.scheduler with
          current := some n
          ready := rest
          zombies := p.scheduler.zombies ++ [c.finish v]
          retired := p.scheduler.retired ++ c.stack?.toList } := by
  cases hr : p.scheduler.ready with
  | nil =>
      rw [(hp.finishes (hid ▸ h.exit) hr).1] at hover
      contradiction
  | cons n rest =>
      obtain ⟨s, hs⟩ := h.retires hp hid hr
      obtain ⟨rest', hr', hscheduler⟩ := hp.books.exists_of_retires hs
      obtain rfl := (List.cons.inj (hr.symm.trans hr')).2
      exact ⟨n, rest, rfl, hs.pool, hs.host, hscheduler⟩

end Departs

/-- **The process ends when it should**, in every run in which the scheduler has
been started.

* When the library ends it, its code is the low byte of the value with which
  the running thread was to end, and no other thread lives.
* A thread other than the initial one ends it by its exit exactly when no other
  lives.  Otherwise that thread is done, with its value, and nothing else has
  happened.
* So it is not ended by the exit of another thread as long as the initial one
  has not been cancelled. -/
theorem ends_when_it_should (run : Run τ p) (hinit : p.isInitialised = true) :
    (∀ move v q, p.Step move q → p.Finishes v q →
      q.control = .over (.exit v.lowByte) ∧ q.scheduler.ready = [] ∧
      (∀ t ∈ q.scheduler.threads, t.id ≠ p.self → t.state = .done ∨ t.state = .cancelled) ∧
      (∀ id ∈ p.host.toList ++ τ.created, id ≠ p.self → ∃ status, (id, status) ∈ τ.ends) ∧
      ∃ call, (p.transcribe move q τ).outstanding p.self = some call ∧
        call.exitValue? p.self = some v) ∧
    (∀ call v, p.Departs call v →
      ((p.perform call).isOver = true ↔
        ∀ t ∈ p.scheduler.threads, t.id ≠ p.self → t.state ≠ .running) ∧
      ((p.perform call).isOver = true → p.Finishes v (p.perform call)) ∧
      ((p.perform call).isOver = false →
        ∃ c n rest, p.scheduler.current = some c ∧ c.id = p.self ∧
          (c.finish v).exitStatus = some (.returned v) ∧
          p.scheduler.ready = n :: rest ∧ (p.perform call).pool = p.pool ∧
          (p.perform call).host = p.host ∧
          (p.perform call).scheduler =
            { p.scheduler with
              current := some n
              ready := rest
              zombies := p.scheduler.zombies ++ [c.finish v]
              retired := p.scheduler.retired ++ c.stack?.toList })) ∧
    ∀ t ∈ p.scheduler.threads, t.id = .initial → t.state ≠ .cancelled →
      ∀ call v, p.Departs call v → (p.perform call).isOver = false := by
  have hover : ∀ call v, p.Departs call v → ((p.perform call).isOver = true ↔
      ∀ t ∈ p.scheduler.threads, t.id ≠ p.self → t.state ≠ .running) := by
    intro call v h
    obtain ⟨-, c, hp, hid⟩ := h.idle run hinit
    rw [h.isOver_iff hp hid, ← hp.books.alone_iff, hid]
  refine ⟨?_, ?_, ?_⟩
  · intro move v q hstep hq
    obtain ⟨c, hp, hl, hr, hthreads, hready, hcontrol, hcall⟩ := run.of_finishes hinit hstep hq
    refine ⟨hcontrol, hready, ?_, ?_, hcall⟩
    · intro t ht hne
      rw [hthreads] at ht
      have hended := hp.alone_iff.mpr hr t ht (hp.self_eq ▸ hne)
      cases hstate : t.state with
      | running => contradiction
      | cancelled => exact .inr rfl
      | done => exact .inl rfl
    · intro id hid hne
      exact hl.exists_end hp hr hid (hp.self_eq ▸ hne)
  · intro call v h
    obtain ⟨-, c, hp, hid⟩ := h.idle run hinit
    refine ⟨hover call v h, ?_, ?_⟩
    · intro hends
      exact hp.finishes (hid ▸ h.exit) ((h.isOver_iff hp hid).mp hends)
    · intro hgoes
      obtain ⟨n, rest, hrest⟩ := h.ends_caller_only hp hid hgoes
      exact ⟨c, n, rest, hp.books.current, hid, c.exitStatus_finish, hrest⟩
  · intro t ht hinitial hstate call v h
    obtain ⟨hl, c, hp, hid⟩ := h.idle run hinit
    cases hends : (p.perform call).isOver with
    | false => rfl
    | true =>
        have hne : t.id ≠ p.self := hinitial ▸ h.initial.symm
        have hrunning := hl.running_of_initial hp.books ht hinitial hstate
        exact absurd hrunning ((hover call v h).mp hends t ht hne)

/-- The initial thread waits in its exit.  The exit of one of the two threads
that it has made ends that thread; the other one cancels the initial thread
and ends the process with its own value. -/
theorem last_exit_ends :
    let moves : List Move :=
      [.call (.init (.ofMicros 1000)), .call (.create ⟨0, .native⟩ 5),
        .call (.create ⟨0, .foreign⟩ 6), .call (.exit 9), .turn]
    ∃ τ p τ' p', ({} : Process).follow [] moves = some (τ, p) ∧
      p.Departs (.exit 5) 5 ∧ (p.perform (.exit 5)).isOver = false ∧
      p.follow τ [.call (.exit 5), .turn, .call (.cancel .initial)] = some (τ', p') ∧
      p'.Departs (.exit 263) 263 ∧ p'.Finishes 263 (p'.perform (.exit 263)) ∧
      (p'.perform (.exit 263)).control = .over (.exit 7) := by
  intro moves
  obtain ⟨τ, p, hfollow⟩ : ∃ τ p, ({} : Process).follow [] moves = some (τ, p) := ⟨_, _, rfl⟩
  have run := Run.start.follow hfollow
  obtain ⟨τ', p', hfollow'⟩ :
      ∃ τ' p', p.follow τ [.call (.exit 5), .turn, .call (.cancel .initial)] = some (τ', p') := by
    obtain ⟨rfl, rfl⟩ := Prod.mk.inj (Option.some.inj hfollow)
    exact ⟨_, _, rfl⟩
  have run' := run.follow hfollow'
  obtain ⟨hinit, hwaiting, hdeparts⟩ : p.isInitialised = true ∧
      .hosted .initial ∈ p.scheduler.threads ∧ p.Departs (.exit 5) 5 := by
    obtain ⟨-, rfl⟩ := Prod.mk.inj (Option.some.inj hfollow)
    exact ⟨by decide, by decide, ⟨_, rfl⟩, rfl, by decide⟩
  obtain ⟨hinit', halone, hdeparts'⟩ : p'.isInitialised = true ∧
      (∀ t ∈ p'.scheduler.threads, t.id ≠ p'.self → t.state ≠ .running) ∧
      p'.Departs (.exit 263) 263 := by
    obtain ⟨rfl, rfl⟩ := Prod.mk.inj (Option.some.inj hfollow)
    obtain ⟨-, rfl⟩ := Prod.mk.inj (Option.some.inj hfollow')
    exact ⟨by decide, by decide, ⟨_, rfl⟩, rfl, by decide⟩
  have hgoes := (ends_when_it_should run hinit).2.2 _ hwaiting rfl (by decide) _ _ hdeparts
  have hlast := (ends_when_it_should run' hinit').2.1 _ _ hdeparts'
  have hfinishes := hlast.2.1 (hlast.1.mpr halone)
  obtain ⟨_, hclient⟩ := hdeparts'.client
  have hended := (ends_when_it_should run' hinit').1 _ _ _ (.call hclient _) hfinishes
  exact ⟨τ, p, τ', p', hfollow, hdeparts, hgoes, hfollow', hdeparts', hfinishes, hended.1⟩

end Process

end GreenThreads
