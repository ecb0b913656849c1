import GreenThreads.Proofs.Identity
import GreenThreads.Proofs.Join
import GreenThreads.Proofs.Waiting

/-!
# GreenThreads.Proofs.Whereabouts

What the scheduler says of an identity, and what has become of its thread.

The scheduler searches its queues in an order and tests states as it goes.
Where every thread is in its place, the order does not matter: an identity
stands for the current thread, for one that is ready, for one that has ended,
or for none, and `placeOf` says for which.  What each operation answers is a
function of that:

* `Placed.isRunning_iff`, `Placed.cancel_outcome`, `Placed.beginJoin_eq`;
* `Run.at_iff` — the places are those that the history of the run tells of.

The main statement is `identities_classified`.
-/

namespace GreenThreads

/-- Where the thread of an identity is, if there is one. -/
inductive Place where
  | current
  | ready
  | ended
  | unknown
  deriving DecidableEq, Repr

namespace Scheduler

variable {s : Scheduler} {c : Thread} {id : ThreadId}

/-- Where the thread of a given identity is. -/
def placeOf (id : ThreadId) (s : Scheduler) : Place :=
  if s.currentId = id then .current
  else if ∃ t ∈ s.ready, t.id = id then .ready
  else if ∃ t ∈ s.zombies, t.id = id then .ended
  else .unknown

namespace Placed

/-! ## one place for each -/

theorem places (hc : s.current = some c) (id : ThreadId) :
    id = c.id ∨ (∃ t ∈ s.ready, t.id = id) ∨ (∃ t ∈ s.zombies, t.id = id) ∨ id ∉ s.ids := by
  by_cases hid : id ∈ s.ids
  · cases (mem_ids_iff hc).mp hid with
    | inl hcurrent => exact .inl hcurrent
    | inr hother =>
        obtain ⟨t, ht, rfl⟩ := hother
        cases List.mem_append.mp ht with
        | inl hready => exact .inr (.inl ⟨t, hready, rfl⟩)
        | inr hzombie => exact .inr (.inr (.inl ⟨t, hzombie, rfl⟩))
  · exact .inr (.inr (.inr hid))

theorem placeOf_current (hc : s.current = some c) : s.placeOf c.id = .current := by
  rw [placeOf, if_pos (currentId_eq hc)]

theorem placeOf_ready (h : s.Placed) (hc : s.current = some c) (ht : t ∈ s.ready) :
    s.placeOf t.id = .ready := by
  have hne : s.currentId ≠ t.id := currentId_eq hc ▸ h.current_ne hc ht
  rw [placeOf, if_neg hne, if_pos ⟨t, ht, rfl⟩]

theorem placeOf_zombie (h : s.Placed) (hc : s.current = some c) (ht : t ∈ s.zombies) :
    s.placeOf t.id = .ended := by
  have hne : s.currentId ≠ t.id :=
    currentId_eq hc ▸ (h.ne_current hc (List.mem_append_right _ ht)).symm
  have hnotready : ¬ ∃ u ∈ s.ready, u.id = t.id := by
    intro hready
    obtain ⟨u, hu, hid⟩ := hready
    exact h.ne_of_mem_zombies ht (List.mem_append_right _ hu) hid
  rw [placeOf, if_neg hne, if_neg hnotready, if_pos ⟨t, ht, rfl⟩]

theorem placeOf_notMem (hc : s.current = some c) (hid : id ∉ s.ids) : s.placeOf id = .unknown := by
  rw [mem_ids_iff hc] at hid
  have hne : s.currentId ≠ id := fun heq => hid (.inl (currentId_eq hc ▸ heq.symm))
  have hnotready : ¬ ∃ t ∈ s.ready, t.id = id :=
    fun ⟨t, ht, heq⟩ => hid (.inr ⟨t, List.mem_append_left _ ht, heq⟩)
  have hnotended : ¬ ∃ t ∈ s.zombies, t.id = id :=
    fun ⟨t, ht, heq⟩ => hid (.inr ⟨t, List.mem_append_right _ ht, heq⟩)
  rw [placeOf, if_neg hne, if_neg hnotready, if_neg hnotended]

/-! ## looking an identity up -/

theorem find?_current (h : s.Placed) (hc : s.current = some c) : s.find? c.id = none := by
  rw [find?, List.find?_eq_none]
  intro t ht
  simpa using h.ne_current hc ht

theorem find?_notMem (hc : s.current = some c) (hid : id ∉ s.ids) : s.find? id = none := by
  rw [mem_ids_iff hc] at hid
  rw [find?, List.find?_eq_none]
  intro t ht
  simpa using fun heq => hid (.inr ⟨t, ht, heq⟩)

/-- What is alive is current or ready. -/
theorem isRunning_iff (h : s.Placed) (hc : s.current = some c) (id : ThreadId) :
    s.isRunning id = true ↔ s.placeOf id = .current ∨ s.placeOf id = .ready := by
  obtain rfl | ⟨t, ht, rfl⟩ | ⟨t, ht, rfl⟩ | hid := places hc id
  · simp [isRunning, currentId_eq hc, placeOf_current hc]
  · simp [h.isRunning_of_ready ht, h.placeOf_ready hc ht]
  · simp [h.isRunning_of_zombie hc ht, h.placeOf_zombie hc ht]
  · have hne : s.currentId ≠ id := fun heq =>
      hid ((mem_ids_iff hc).mpr (.inl (currentId_eq hc ▸ heq.symm)))
    simp [isRunning, hne, find?_notMem hc hid, placeOf_notMem hc hid]

/-- Whether a cancellation is refused, and why. -/
theorem cancel_outcome (h : s.Placed) (hc : s.current = some c) (id : ThreadId) :
    (s.cancel id).map (fun _ => ()) =
      match s.placeOf id with
      | .ready => .ok ()
      | .ended => .error (.alreadyTerminated id)
      | .current | .unknown => .error (.unknownThread id) := by
  obtain rfl | ⟨t, ht, rfl⟩ | ⟨t, ht, rfl⟩ | hid := places hc id
  · have hnotready : s.ready.find? (fun a => a.id = c.id) = none := by
      rw [List.find?_eq_none]
      intro u hu
      simpa using (h.current_ne hc hu).symm
    simp only [Scheduler.cancel, hnotready, h.find?_current hc, placeOf_current hc]
    rfl
  · obtain ⟨front, back, hr⟩ := List.append_of_mem ht
    rw [cancel_append h hr, h.placeOf_ready hc ht]
    rfl
  · have hnotready : s.ready.find? (fun a => a.id = t.id) = none := by
      rw [List.find?_eq_none]
      intro u hu
      simpa using h.ne_of_mem_zombies ht (List.mem_append_right _ hu)
    simp only [Scheduler.cancel, hnotready, h.find?_eq (List.mem_append_right _ ht), h.placeOf_zombie hc ht]
    rfl
  · have hnone := find?_notMem hc hid
    rw [find?, List.find?_append] at hnone
    have hnotready := (Option.or_eq_none_iff.mp hnone).1
    simp only [Scheduler.cancel, hnotready, find?_notMem hc hid, placeOf_notMem hc hid]
    rfl

/-- Whether the current thread may wait, and why not. -/
theorem beginJoin_eq (h : s.Placed) (hc : s.current = some c) (id : ThreadId) :
    s.beginJoin id =
      match s.placeOf id with
      | .current => .error (.selfJoin id)
      | .ready =>
        if ∃ t ∈ s.ready, t.id = id ∧ t.joining = s.currentId then .error (.reciprocalJoin id)
        else .ok (s.setJoining id)
      | .ended => .ok (s.setJoining id)
      | .unknown => .error (.unknownThread id) := by
  obtain rfl | ⟨t, ht, rfl⟩ | ⟨t, ht, rfl⟩ | hid := places hc id
  · simp [Scheduler.beginJoin, currentId_eq hc, placeOf_current hc]
  · have hne : t.id ≠ s.currentId := currentId_eq hc ▸ (h.current_ne hc ht).symm
    have hmem : t ∈ s.ready ++ s.zombies := List.mem_append_left _ ht
    have hwaits : (∃ u ∈ s.ready, u.id = t.id ∧ u.joining = s.currentId) ↔
        t.joining = s.currentId := by
      constructor
      · intro hex
        obtain ⟨u, hu, hid, hjoining⟩ := hex
        obtain rfl : u = t := by
          have hfind := h.find?_ready hu
          rw [hid, h.find?_ready ht] at hfind
          exact (Option.some.inj hfind).symm
        exact hjoining
      · exact fun hjoining => ⟨t, ht, rfl, hjoining⟩
    simp only [Scheduler.beginJoin, if_neg hne, h.find?_eq hmem, h.placeOf_ready hc ht, hwaits]
  · have hmem : t ∈ s.ready ++ s.zombies := List.mem_append_right _ ht
    have hne : t.id ≠ s.currentId := currentId_eq hc ▸ h.ne_current hc hmem
    -- what has ended waits for nobody, and nobody is current
    have hjoining : t.joining ≠ s.currentId := by
      rw [(h.ended t ht).joining, currentId_eq hc]
      exact (h.ne_nobody ((mem_ids_iff hc).mpr (.inl rfl))).symm
    simp [Scheduler.beginJoin, hne, h.find?_eq hmem, hjoining, h.placeOf_zombie hc ht]
  · have hne : id ≠ s.currentId := fun heq =>
      hid ((mem_ids_iff hc).mpr (.inl (currentId_eq hc ▸ heq)))
    simp [Scheduler.beginJoin, hne, find?_notMem hc hid, placeOf_notMem hc hid]

/-- Another thread is cancelled when it is ready. -/
theorem cancel_iff (h : s.Placed) (hc : s.current = some c) (hne : s.placeOf id ≠ .current) :
    ((∃ r, s.cancel id = .ok r) ↔ s.placeOf id = .ready) ∧
      (s.cancel id = .error (.alreadyTerminated id) ↔ s.placeOf id = .ended) ∧
      (s.cancel id = .error (.unknownThread id) ↔ s.placeOf id = .unknown) := by
  have houtcome := h.cancel_outcome hc id
  cases hplace : s.placeOf id with
  | current => exact absurd hplace hne
  | _ =>
    rw [hplace] at houtcome
    cases hresult : s.cancel id <;> simp_all [Except.map]

/-- The current thread may wait for any other that does not wait for it. -/
theorem beginJoin_iff (h : s.Placed) (hc : s.current = some c) (id : ThreadId) :
    (s.beginJoin id = .error (.selfJoin id) ↔ s.placeOf id = .current) ∧
      (s.beginJoin id = .error (.unknownThread id) ↔ s.placeOf id = .unknown) ∧
      (s.beginJoin id = .error (.reciprocalJoin id) ↔
        ∃ t ∈ s.ready, t.id = id ∧ t.joining = s.currentId) ∧
      ((∃ s', s.beginJoin id = .ok s') ↔
        s.placeOf id = .ended ∨ s.placeOf id = .ready ∧
          ∀ t ∈ s.ready, t.id = id → t.joining ≠ s.currentId) := by
  rw [h.beginJoin_eq hc id]
  -- a thread that is ready is found in no other place
  have hready : (∃ t ∈ s.ready, t.id = id ∧ t.joining = s.currentId) → s.placeOf id = .ready := by
    rintro ⟨t, ht, rfl, -⟩
    exact h.placeOf_ready hc ht
  by_cases hwaits : ∃ t ∈ s.ready, t.id = id ∧ t.joining = s.currentId
  · rw [hready hwaits, if_pos hwaits]
    simpa using hwaits
  · rw [if_neg hwaits]
    cases s.placeOf id <;> simp_all

end Placed

end Scheduler

/-! ## the history of a run -/

namespace Process

variable {τ : Transcript} {p : Process} {id : ThreadId}

/-- What a run tells of an identity: its thread is current, it is ready, it has
ended, or no thread was ever given it. -/
def At (p : Process) (τ : Transcript) (id : ThreadId) : Place → Prop
  | .current => p.scheduler.current.map Thread.id = some id
  | .ready => ∃ t ∈ p.scheduler.ready, t.id = id
  | .ended => ∃ status, (id, status) ∈ τ.ends
  | .unknown => id ∉ τ.initialiser.toList ++ τ.created

/-- Once there are threads, the books agree with what is written. -/
theorem Run.books (run : Run τ p) (hinit : p.isInitialised = true) (hover : p.isOver = false) :
    Ledger τ p ∧ ∃ c, p.Books c := by
  obtain ⟨hl, hp | hp⟩ := run.consistent.books hover
  · exact nomatch hp.isInitialised_eq.symm.trans hinit
  · exact ⟨hl, hp⟩

/-- The place of an identity is the one that the run tells of. -/
theorem Run.at_iff (run : Run τ p) (hinit : p.isInitialised = true) (hover : p.isOver = false)
    (id : ThreadId) (place : Place) : p.At τ id place ↔ p.scheduler.placeOf id = place := by
  obtain ⟨hl, c, hp⟩ := run.books hinit hover
  have hids : id ∈ p.scheduler.ids ↔ id ∈ τ.initialiser.toList ++ τ.created := by
    rw [hl.threads.mem_iff, run.host_eq_initialiser hover]
  have hends : (∃ status, (id, status) ∈ τ.ends) ↔ ∃ t ∈ p.scheduler.zombies, t.id = id := by
    simp only [hl.mem_ends_iff]
    constructor
    · rintro ⟨status, t, ht, hid, -⟩
      exact ⟨t, ht, hid⟩
    · rintro ⟨t, ht, hid⟩
      obtain ⟨status, hstatus⟩ := (hp.placed.ended t ht).exists_exitStatus
      exact ⟨status, t, ht, hid, hstatus⟩
  constructor
  · intro hat
    cases place with
    | current =>
        rw [At, hp.current] at hat
        exact Option.some.inj hat ▸ Scheduler.Placed.placeOf_current hp.current
    | ready =>
        obtain ⟨t, ht, rfl⟩ := hat
        exact hp.placed.placeOf_ready hp.current ht
    | ended =>
        obtain ⟨t, ht, rfl⟩ := hends.mp hat
        exact hp.placed.placeOf_zombie hp.current ht
    | unknown => exact Scheduler.Placed.placeOf_notMem hp.current (mt hids.mp hat)
  · rintro rfl
    obtain rfl | ⟨t, ht, rfl⟩ | ⟨t, ht, rfl⟩ | hid := Scheduler.Placed.places hp.current id
    · rw [Scheduler.Placed.placeOf_current hp.current, At, hp.current]
      rfl
    · rw [hp.placed.placeOf_ready hp.current ht]
      exact ⟨t, ht, rfl⟩
    · rw [hp.placed.placeOf_zombie hp.current ht]
      exact hends.mpr ⟨t, ht, rfl⟩
    · rw [Scheduler.Placed.placeOf_notMem hp.current hid]
      exact mt hids.mpr hid

/-! ## what a caller is told -/

/-- A thread that cancels another one is told what the scheduler says. -/
theorem Idle.control_cancel (h : p.Idle c) (hne : id ≠ c.id) :
    (p.perform (.cancel id)).control =
      .client (match p.scheduler.cancel id with
        | .ok _ => .done
        | .error e => .refused e) := by
  rw [perform]
  cases hcancel : p.scheduler.cancel id with
  | ok r => rw [(h.cancels_cancel hne hcancel).1.control]
  | error e =>
      rw [h.cancel_of_error hne hcancel, leave_guard h.quiet rfl]

/-- **Every identity is classified, and every lookup and refusal agrees.**

Once the scheduler has been initialised, an identity is that of the current
thread, of one that is ready, of one that has ended, or of none there ever was,
and of one of these only.

* A thread is running while it is current or ready.
* Another thread is cancelled if it is ready, and otherwise the refusal says
  whether it has ended or never was.
* The current thread may wait for any other, unless that one is ready and waits
  for it.
* Client code that cancels or joins is told just that. -/
theorem identities_classified (run : Run τ p) (hinit : p.isInitialised = true)
    (hover : p.isOver = false) (id : ThreadId) :
    (∃! place, p.At τ id place) ∧
    (id = .nobody ∨ p.scheduler.nextId.val ≤ id.val → p.At τ id .unknown) ∧
    (p.scheduler.isRunning id = true ↔ p.At τ id .current ∨ p.At τ id .ready) ∧
    (¬ p.At τ id .current →
      ((∃ r, p.scheduler.cancel id = .ok r) ↔ p.At τ id .ready) ∧
      (p.scheduler.cancel id = .error (.alreadyTerminated id) ↔ p.At τ id .ended) ∧
      (p.scheduler.cancel id = .error (.unknownThread id) ↔ p.At τ id .unknown)) ∧
    (p.scheduler.beginJoin id = .error (.selfJoin id) ↔ p.At τ id .current) ∧
    (p.scheduler.beginJoin id = .error (.unknownThread id) ↔ p.At τ id .unknown) ∧
    (p.scheduler.beginJoin id = .error (.reciprocalJoin id) ↔
      ∃ t ∈ p.scheduler.ready, t.id = id ∧ t.joining = p.scheduler.currentId) ∧
    ((∃ s, p.scheduler.beginJoin id = .ok s) ↔
      p.At τ id .ended ∨ p.At τ id .ready ∧
        ∀ t ∈ p.scheduler.ready, t.id = id → t.joining ≠ p.scheduler.currentId) ∧
    ∀ reply, p.control = .client reply →
      (¬ p.At τ id .current →
        (p.perform (.cancel id)).control =
          .client (match p.scheduler.cancel id with
            | .ok _ => .done
            | .error e => .refused e)) ∧
      ∀ e, (p.perform (.join id)).control = .client (.refused e) ↔
        p.scheduler.beginJoin id = .error e := by
  obtain ⟨-, c, hp⟩ := run.books hinit hover
  have hat := run.at_iff hinit hover id
  simp only [hat]
  refine ⟨⟨_, rfl, fun _ h => h.symm⟩, ?_, hp.placed.isRunning_iff hp.current id,
    hp.placed.cancel_iff hp.current, ?_⟩
  · intro hout
    refine Scheduler.Placed.placeOf_notMem hp.current fun hmem => ?_
    cases hout with
    | inl hnobody => exact hp.placed.ne_nobody hmem hnobody
    | inr hlarge => exact absurd (hp.placed.bounds id hmem).2 (Nat.not_lt.mpr hlarge)
  · obtain ⟨hself, hunknown, hreciprocal, hok⟩ := hp.placed.beginJoin_iff hp.current id
    refine ⟨hself, hunknown, hreciprocal, hok, fun reply hclient => ⟨fun hne => ?_, fun e => ?_⟩⟩
    · obtain ⟨-, ⟨hunstarted, -⟩ | ⟨c', hidle⟩⟩ := run.consistent.client hclient
      · exact nomatch hunstarted.isInitialised_eq.symm.trans hinit
      · refine hidle.control_cancel fun heq => hne ?_
        rw [heq]
        exact Scheduler.Placed.placeOf_current hidle.books.current
    · rw [run.join_refused_iff hclient, if_pos hinit]

/-- While the second thread runs the initial one waits for it, the third has
been cancelled, and there is no fourth. -/
theorem four_identities_classified :
    let moves : List Move :=
      [.call (.init (.ofMicros 1000)), .call (.create ⟨0, .native⟩ 5),
        .call (.create ⟨0, .foreign⟩ 6), .call (.cancel ⟨3⟩), .call (.join ⟨2⟩), .turn]
    ∃ τ p, ({} : Process).follow [] moves = some (τ, p) ∧
      p.At τ ⟨2⟩ .current ∧ p.At τ .initial .ready ∧ p.At τ ⟨3⟩ .ended ∧ p.At τ ⟨4⟩ .unknown ∧
      p.scheduler.beginJoin .initial = .error (.reciprocalJoin .initial) ∧
      (∃ s, p.scheduler.beginJoin ⟨3⟩ = .ok s) ∧
      p.scheduler.cancel ⟨3⟩ = .error (.alreadyTerminated ⟨3⟩) ∧
      p.scheduler.cancel ⟨4⟩ = .error (.unknownThread ⟨4⟩) := by
  intro moves
  obtain ⟨τ, p, hfollow⟩ : ∃ τ p, ({} : Process).follow [] moves = some (τ, p) := ⟨_, _, rfl⟩
  obtain ⟨hinit, hover, hcurrent, hready, hended, hnext⟩ :
      p.isInitialised = true ∧ p.isOver = false ∧ p.At τ ⟨2⟩ .current ∧
        (∃ t ∈ p.scheduler.ready, t.id = .initial ∧ t.joining = p.scheduler.currentId) ∧
        p.At τ ⟨3⟩ .ended ∧ p.scheduler.nextId = ⟨4⟩ := by
    obtain ⟨rfl, rfl⟩ := Prod.mk.inj (Option.some.inj hfollow)
    exact ⟨rfl, rfl, rfl, ⟨_, List.mem_singleton_self _, rfl, rfl⟩,
      ⟨.cancelled, List.mem_singleton_self _⟩, rfl⟩
  have h := identities_classified (Run.start.follow hfollow) hinit hover
  obtain ⟨-, -, -, -, -, -, hreciprocal, -⟩ := h .initial
  obtain ⟨hthird, -, -, hcancel, -, -, -, hok, -⟩ := h ⟨3⟩
  obtain ⟨hfourth, hlarge, -, hcancel', -⟩ := h ⟨4⟩
  have hunknown := hlarge (.inr (by rw [hnext]))
  have hne : ¬ p.At τ ⟨3⟩ .current := fun hat => nomatch hthird.unique hended hat
  have hne' : ¬ p.At τ ⟨4⟩ .current := fun hat => nomatch hfourth.unique hunknown hat
  exact ⟨τ, p, hfollow, hcurrent, hready.imp fun t ht => ⟨ht.1, ht.2.1⟩, hended, hunknown,
    hreciprocal.mpr hready, hok.mpr (.inl hended), (hcancel hne).2.1.mpr hended,
    (hcancel' hne').2.2.mpr hunknown⟩

end Process

end GreenThreads
