import GreenThreads.Proofs.Join

/-!
# GreenThreads.Proofs.Reciprocity

No two threads wait for each other.

Whom a thread waits for is written in its descriptor.  It is written there when
a join begins, which is refused where the target waits for the caller, and it
is cleared when the join ends, and when the thread does.

* `Scheduler.Joins` — who waits for whom, wherever the descriptor is;
* `joins_act` — an operation only ever adds the wait that it was asked for;
* `OneWay.after` — so waits lead to threads there are, and one way only;
* `Idle.beginJoin_eq_reciprocal_iff` — in a run, the refusal is given where the
  target is switched out in a join of the caller, and nowhere else.

The main statement is `no_mutual_joins`.
-/

namespace GreenThreads

namespace Scheduler

/-! ## who waits for whom -/

/-- The descriptor of `joiner` says that it waits for `target`. -/
def Joins (s : Scheduler) (joiner target : ThreadId) : Prop :=
  target ≠ .nobody ∧ ∃ t ∈ s.threads, t.id = joiner ∧ t.joining = target

/-- Where the threads of a scheduler come from: a descriptor has not changed,
it waits for nobody, or its thread has just begun to wait. -/
inductive Descends (s : Scheduler) (o : Operation) (t : Thread) : Prop where
  | same (h : t ∈ s.threads)
  | idle (h : t.joining = .nobody)
  | began (hc : s.current = some c) (hid : t.id = c.id) (ho : o = .beginJoin t.joining)
      (hok : s.beginJoin t.joining = .ok s')

variable {s s' : Scheduler} {a b id : ThreadId}

theorem mem_threads_setJoining {target : ThreadId} (ht : t ∈ (s.setJoining target).threads) :
    t ∈ s.threads ∨ ∃ c, s.current = some c ∧ t = { c with joining := target } := by
  simp only [threads, setJoining, List.append_assoc, List.mem_append (s := Option.toList _),
    Option.mem_toList, Option.map_eq_some_iff] at ht ⊢
  cases ht with
  | inl hcurrent =>
      obtain ⟨c, hc, rfl⟩ := hcurrent
      exact .inr ⟨c, hc, rfl⟩
  | inr hother => exact .inl (.inr hother)

theorem descends_rotate (h : s.Placed) (ht : t ∈ s.rotate.2.threads) : s.Descends .rotate t := by
  cases hc : s.current with
  | none => rw [rotate_of_none hc] at ht; exact .same ht
  | some c =>
      cases hr : s.ready with
      | nil => rw [rotate_nil hr] at ht; exact .same ht
      | cons n rest =>
          rw [rotate_cons h hc hr] at ht
          refine .same ?_
          simp only [threads, hc, hr, Option.toList_some, List.mem_append, List.mem_cons,
            List.not_mem_nil, or_false] at ht ⊢
          grind

theorem descends_retire (h : s.Placed) (ht : t ∈ (s.retire v).2.threads) :
    s.Descends (.retire v) t := by
  cases hc : s.current with
  | none => rw [retire_of_none hc] at ht; exact .same ht
  | some c =>
      cases hr : s.ready with
      | nil => rw [retire_nil hr] at ht; exact .same ht
      | cons n rest =>
          rw [retire_cons h hc hr, threads, ← List.append_assoc, List.mem_append] at ht
          cases ht with
          | inl hold =>
              refine .same ?_
              simp only [threads, hc, hr, Option.toList_some, List.mem_append,
                List.mem_cons] at hold ⊢
              grind
          | inr hended => exact .idle (by rw [List.mem_singleton.mp hended, Thread.finish])

theorem descends_cancel (h : s.Placed) (hs : s.cancel id = .ok (freed, s')) (ht : t ∈ s'.threads) :
    s.Descends (.cancel id) t := by
  obtain ⟨front, u, back, hr, -, -, rfl⟩ := exists_of_cancel h hs
  rw [threads, ← List.append_assoc, List.mem_append] at ht
  cases ht with
  | inl hold =>
      refine .same ?_
      simp only [threads, hr, List.mem_append, List.mem_cons] at hold ⊢
      grind
  | inr hended => exact .idle (by rw [List.mem_singleton.mp hended, Thread.cancel])

/-- What an operation does to the descriptors, as far as waits go. -/
theorem descends_act (h : s.Placed) (o : Operation) (ht : t ∈ (s.act o).scheduler.threads) :
    s.Descends o t := by
  cases o with
  | allocateId | reap => exact .same ht
  | start size =>
      have hnew : t = .hosted s.nextId := by simpa [act, allocateId, start, threads] using ht
      exact .idle (by rw [hnew, Thread.hosted])
  | spawn routine arg stack =>
      have hnew : t ∈ s.threads ∨ t = .create s.nextId routine arg stack := by
        simp only [act, allocateId, add, threads, List.mem_append, List.mem_singleton] at ht ⊢
        grind
      exact hnew.elim .same fun heq => .idle (by rw [heq, Thread.create])
  | spawnHosted =>
      have hnew : t ∈ s.threads ∨ t = .hosted s.nextId := by
        simp only [act, allocateId, add, threads, List.mem_append, List.mem_singleton] at ht ⊢
        grind
      exact hnew.elim .same fun heq => .idle (by rw [heq, Thread.hosted])
  | rotate => exact descends_rotate h ht
  | retire v => exact descends_retire h ht
  | cancel id =>
      cases scheduler_act_cancel s id with
      | inl heq => rw [heq] at ht; exact .same ht
      | inr hok => exact descends_cancel h hok.choose_spec ht
  | beginJoin id =>
      cases hbegin : s.beginJoin id with
      | error e =>
          simp only [act, hbegin] at ht
          exact .same ht
      | ok s' =>
          simp only [act, hbegin, eq_setJoining_of_beginJoin hbegin] at ht
          cases mem_threads_setJoining ht with
          | inl hold => exact .same hold
          | inr hnew =>
              obtain ⟨c, hc, rfl⟩ := hnew
              exact .began hc rfl rfl hbegin
  | endJoin id =>
      rw [scheduler_act_endJoin] at ht
      cases mem_threads_setJoining ht with
      | inl hold => exact .same hold
      | inr hnew =>
          obtain ⟨c, -, rfl⟩ := hnew
          exact .idle rfl

/-- An operation adds no wait but the one that it was asked for. -/
theorem joins_act (h : s.Placed) (o : Operation) (hj : (s.act o).scheduler.Joins a b) :
    s.Joins a b ∨ o = .beginJoin b ∧ a = s.currentId ∧ ∃ s', s.beginJoin b = .ok s' := by
  obtain ⟨hb, t, ht, rfl, rfl⟩ := hj
  cases descends_act h o ht with
  | same hold => exact .inl ⟨hb, t, hold, rfl, rfl⟩
  | idle hidle => exact absurd hidle hb
  | began hc hid ho hok => exact .inr ⟨ho, by rw [hid, currentId, hc], _, hok⟩

/-- A thread that waits for the current one may not be waited for in turn. -/
theorem not_joins_of_beginJoin (h : s.Placed) (hok : s.beginJoin b = .ok s') :
    b ≠ s.currentId ∧ ¬ s.Joins b s.currentId := by
  obtain ⟨hne, u, hu, rfl⟩ := exists_of_beginJoin hok
  refine ⟨hne, ?_⟩
  intro hj
  obtain ⟨hnobody, t, ht, hid, hjoining⟩ := hj
  have hmem : t ∈ s.ready ++ s.zombies := by
    rw [threads, List.append_assoc] at ht
    cases List.mem_append.mp ht with
    | inl hcurrent =>
        have hc := Option.mem_toList.mp hcurrent
        exact absurd (by rw [currentId, hc, ← hid]) hne
    | inr hother => exact hother
  have hfind : s.find? u.id = some t := hid ▸ h.find?_eq hmem
  simp [beginJoin, hne, hfind, hjoining] at hok

/-! ## waits go one way -/

/-- Waits lead to threads there are, and no two threads wait for each other. -/
structure OneWay (s : Scheduler) : Prop where
  known : ∀ a b, s.Joins a b → b ∈ s.ids
  asymm : ∀ a b, s.Joins a b → ¬ s.Joins b a

theorem oneWay_empty : ({} : Scheduler).OneWay := by
  constructor <;> simp [Joins, threads]

/-- Threads are not forgotten until the scheduler starts over. -/
theorem ids_subset_act (h : s.Placed) {o : Operation} (ho : ∀ size, o ≠ .start size) :
    s.ids ⊆ (s.act o).scheduler.ids := by
  apply List.Subset.trans ?_ (ids_act h o).symm.subset
  cases o with
  | start size => exact absurd rfl (ho size)
  | spawn | spawnHosted => exact List.subset_append_left _ _
  | _ => exact List.Subset.refl _

theorem not_joins_start (s : Scheduler) (size : Nat) :
    ¬ (s.act (.start size)).scheduler.Joins a b := by
  intro hj
  obtain ⟨hb, t, ht, -, rfl⟩ := hj
  have hnew : t = .hosted s.nextId := by simpa [act, allocateId, start, threads] using ht
  exact hb (by rw [hnew, Thread.hosted])

theorem OneWay.act (hs : s.OneWay) (h : s.Placed) (o : Operation) :
    (s.act o).scheduler.OneWay := by
  constructor
  · intro a b hj
    by_cases hstart : ∃ size, o = .start size
    · obtain ⟨size, rfl⟩ := hstart
      exact absurd hj (not_joins_start s size)
    · apply ids_subset_act h fun size heq => hstart ⟨size, heq⟩
      cases joins_act h o hj with
      | inl hold => exact hs.known a b hold
      | inr hnew =>
          obtain ⟨-, -, s', hok⟩ := hnew
          obtain ⟨-, t, ht, rfl⟩ := exists_of_beginJoin hok
          rw [ids, threads, List.append_assoc]
          exact List.mem_map_of_mem (List.mem_append_right _ ht)
  · intro a b hab hba
    -- at most one of the two waits has just begun, and it was checked against the other
    cases joins_act h o hab with
    | inl hold =>
        cases joins_act h o hba with
        | inl hold' => exact hs.asymm a b hold hold'
        | inr hnew =>
            obtain ⟨-, rfl, s', hok⟩ := hnew
            exact (not_joins_of_beginJoin h hok).2 hold
    | inr hnew =>
        obtain ⟨-, rfl, s', hok⟩ := hnew
        cases joins_act h o hba with
        | inl hold' => exact (not_joins_of_beginJoin h hok).2 hold'
        | inr hnew' => exact (not_joins_of_beginJoin h hok).1 hnew'.2.1

theorem OneWay.after (hs : s.OneWay) (h : s.Placed) (history : List Operation) :
    (s.after history).OneWay := by
  induction history generalizing s with
  | nil => exact hs
  | cons o history ih => exact ih (hs.act h o) (h.act o)

/-- Between threads that are there, waits can be read off the descriptors. -/
theorem Placed.joins_of_joining (h : s.Placed) (ht : t ∈ s.threads) (hu : u ∈ s.threads)
    (hjoining : t.joining = u.id) : s.Joins t.id u.id :=
  ⟨h.ne_nobody (List.mem_map_of_mem hu), t, ht, rfl, hjoining⟩

end Scheduler

/-! ## in a run -/

namespace Process

variable {τ : Transcript} {p : Process} {c : Thread} {id other : ThreadId}

/-- The thread `id` is switched out in a join of `target` that it has called. -/
def InJoin (p : Process) (τ : Transcript) (id target : ThreadId) : Prop :=
  τ.outstanding id = some (.join target) ∧
    ∃ s guard, p.saved.lookup id = some s ∧ s.resumption = .joining target guard

/-- What the descriptor of a thread that is ready says of a wait is so. -/
theorem Books.joining_iff (h : p.Books c) (hl : Ledger τ p) (ht : t ∈ p.scheduler.ready)
    (hid : id ≠ .nobody) : t.joining = id ↔ p.InJoin τ t.id id := by
  obtain ⟨s, hs, -, -, hgoes⟩ := h.saved t ht
  have hwaits := hl.waits t ht s hs
  constructor
  · intro hjoining
    rw [hgoes.joining] at hjoining
    cases hr : s.resumption with
    | joining target guard =>
        rw [hr] at hjoining hwaits
        obtain rfl : target = id := hjoining
        generalize hcall : τ.outstanding t.id = call at hwaits
        cases hwaits
        exact ⟨hcall, s, guard, hs, hr⟩
    | _ =>
        rw [hr] at hjoining
        exact absurd hjoining.symm hid
  · intro hin
    obtain ⟨-, s', guard, hs', hr⟩ := hin
    obtain rfl := Option.some.inj (hs.symm.trans hs')
    rw [hgoes.joining, hr]
    rfl

/-- A join is refused as reciprocal where the target has the caller written in
its descriptor. -/
theorem Idle.beginJoin_eq_reciprocal_iff (h : p.Idle c) :
    p.scheduler.beginJoin id = .error (.reciprocalJoin other) ↔
      other = id ∧ ∃ t ∈ p.scheduler.ready, t.id = id ∧ t.joining = c.id := by
  have hself := h.books.currentId_eq
  constructor
  · intro hbegin
    unfold Scheduler.beginJoin at hbegin
    split at hbegin
    · simp at hbegin
    · split at hbegin
      · simp at hbegin
      · next t hfind =>
          split at hbegin
          · next hjoining =>
              have hid : t.id = id := by simpa using List.find?_some hfind
              have hother : other = id := by simpa [eq_comm] using hbegin
              rw [hself] at hjoining
              cases List.mem_append.mp (List.mem_of_find?_eq_some hfind) with
              | inl hready => exact ⟨hother, t, hready, hid, hjoining⟩
              | inr hzombie =>
                  -- what has ended waits for nobody
                  rw [(h.books.placed.ended t hzombie).joining] at hjoining
                  exact absurd hjoining.symm h.books.id_ne_nobody
          · simp at hbegin
  · intro hready
    obtain ⟨rfl, t, ht, rfl, hjoining⟩ := hready
    have hmem : t ∈ p.scheduler.ready ++ p.scheduler.zombies := List.mem_append_left _ ht
    have hne : t.id ≠ c.id := h.books.placed.ne_current h.books.current hmem
    simp [Scheduler.beginJoin, hself, hne, h.books.placed.find?_eq hmem, hjoining]

/-- Where there are no threads no join is reciprocal. -/
theorem Unstarted.beginJoin_ne_reciprocal (h : p.Unstarted) :
    p.scheduler.beginJoin id ≠ .error (.reciprocalJoin other) := by
  rw [h.scheduler]
  unfold Scheduler.beginJoin
  split <;> simp [Scheduler.find?]

/-- **No two threads wait for each other.**

* After any history of a scheduler no thread waits for itself, each waits for
  nobody or for a thread there is, and no two wait for each other.
* In every run, the thread whose code runs waits for nobody.
* A join is refused as reciprocal exactly when its target is alive and switched
  out in a join of the caller. -/
theorem no_mutual_joins (run : Run τ p) :
    (∀ history, let s := ({} : Scheduler).after history
      (∀ t ∈ s.threads, t.joining ≠ t.id ∧ (t.joining = .nobody ∨ t.joining ∈ s.ids)) ∧
      ∀ t ∈ s.threads, ∀ u ∈ s.threads, t.joining = u.id → u.joining ≠ t.id) ∧
    ∀ reply, p.control = .client reply →
      (∀ c, p.scheduler.current = some c → c.id = p.self ∧ c.joining = .nobody) ∧
      ∀ id other,
        ((p.perform (.join id)).control = .client (.refused (.reciprocalJoin other)) ↔
          p.scheduler.beginJoin id = .error (.reciprocalJoin other)) ∧
        (p.scheduler.beginJoin id = .error (.reciprocalJoin other) ↔
          other = id ∧ ∃ t ∈ p.scheduler.ready, t.id = id ∧ t.state = .running ∧
            p.InJoin τ id p.self) := by
  refine ⟨?_, ?_⟩
  · intro history s
    have h : s.Placed := Scheduler.placed_empty.after history
    have hs : s.OneWay := Scheduler.oneWay_empty.after Scheduler.placed_empty history
    have hmutual : ∀ t ∈ s.threads, ∀ u ∈ s.threads, t.joining = u.id → u.joining ≠ t.id := by
      intro t ht u hu htu hut
      exact hs.asymm t.id u.id (h.joins_of_joining ht hu htu) (h.joins_of_joining hu ht hut)
    refine ⟨?_, hmutual⟩
    intro t ht
    refine ⟨fun hself => hmutual t ht t ht hself hself, ?_⟩
    by_cases hnobody : t.joining = .nobody
    · exact .inl hnobody
    · exact .inr (hs.known t.id t.joining ⟨hnobody, t, ht, rfl, rfl⟩)
  · intro reply hclient
    obtain ⟨hl, ⟨hp, -⟩ | ⟨c, hp⟩⟩ := run.consistent.client hclient
    · have hnone : p.scheduler.current = none := by rw [hp.scheduler]
      have hready : p.scheduler.ready = [] := by rw [hp.scheduler]
      refine ⟨by simp [hnone], ?_⟩
      intro id other
      have hne : p.scheduler.beginJoin id ≠ .error (.reciprocalJoin other) :=
        hp.beginJoin_ne_reciprocal
      rw [run.join_refused_iff hclient, hp.isInitialised_eq]
      simp [hne, hready]
    · refine ⟨?_, ?_⟩
      · intro c' hc'
        obtain rfl := Option.some.inj (hp.books.current.symm.trans hc')
        exact ⟨hp.books.self_eq.symm, congrArg Thread.joining hp.active.symm⟩
      · intro id other
        rw [run.join_refused_iff hclient, if_pos hp.books.isInitialised,
          hp.beginJoin_eq_reciprocal_iff]
        refine ⟨.rfl, and_congr_right fun _ => ?_⟩
        have hself := hp.books.id_ne_nobody
        rw [hp.books.self_eq]
        constructor
        · intro hjoins
          obtain ⟨t, ht, rfl, hjoining⟩ := hjoins
          have hstate := (Thread.isRunnable_iff.mp (hp.books.placed.ready ht)).1
          exact ⟨t, ht, rfl, hstate, (hp.books.joining_iff hl ht hself).mp hjoining⟩
        · intro hjoins
          obtain ⟨t, ht, rfl, -, hin⟩ := hjoins
          exact ⟨t, ht, rfl, (hp.books.joining_iff hl ht hself).mpr hin⟩

/-- The initial thread waits for the second one, which may not wait for it in
turn.  Nobody waits in the third one. -/
theorem reciprocal_join_found :
    let moves : List Move :=
      [.call (.init (.ofMicros 1000)), .call (.create ⟨0, .native⟩ 5),
        .call (.create ⟨0, .foreign⟩ 6), .call (.join ⟨2⟩), .turn]
    ∃ τ p, ({} : Process).follow [] moves = some (τ, p) ∧ p.self = ⟨2⟩ ∧
      (p.perform (.join .initial)).control = .client (.refused (.reciprocalJoin .initial)) ∧
      p.InJoin τ .initial ⟨2⟩ ∧
      ∀ other, p.scheduler.beginJoin ⟨3⟩ ≠ .error (.reciprocalJoin other) := by
  intro moves
  obtain ⟨τ, p, hfollow⟩ : ∃ τ p, ({} : Process).follow [] moves = some (τ, p) := ⟨_, _, rfl⟩
  obtain ⟨hcontrol, hself, hrefused, hthird⟩ :
      p.control = .client (.begin ⟨0, .native⟩ 5) ∧ p.self = ⟨2⟩ ∧
        (p.perform (.join .initial)).control = .client (.refused (.reciprocalJoin .initial)) ∧
        τ.outstanding ⟨3⟩ = none := by
    obtain ⟨rfl, rfl⟩ := Prod.mk.inj (Option.some.inj hfollow)
    exact ⟨rfl, rfl, by decide, rfl⟩
  have h := ((no_mutual_joins (Run.start.follow hfollow)).2 _ hcontrol).2
  obtain ⟨hbegin, hfound⟩ := h .initial .initial
  obtain ⟨-, t, -, -, -, hin⟩ := hfound.mp (hbegin.mp hrefused)
  refine ⟨τ, p, hfollow, hself, hrefused, hself ▸ hin, ?_⟩
  intro other hreciprocal
  obtain ⟨-, t', -, -, -, hin'⟩ := (h ⟨3⟩ other).2.mp hreciprocal
  exact nomatch hthird.symm.trans hin'.1

end Process

end GreenThreads
