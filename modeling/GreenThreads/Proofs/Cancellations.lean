import GreenThreads.Proofs.Reordering

/-!
# GreenThreads.Proofs.Cancellations

The order in which threads are cancelled does not matter.

A row of cancellations, whatever its order and however often it names a thread,
takes out of the ready queue those threads that it names, and leaves the others
in their order.  What it does can be said without its order:

* `reordered_cancels` — the scheduler afterwards, up to the order of the zombies;
* `released_cancels` — the stacks that are given up, up to their order;
* `verdicts_eq` — the answers to the calls that name one thread: of a thread that
  is ready the first call is done, and all others are refused.

The main statement is `cancellation_order_is_immaterial`.
-/

namespace GreenThreads.Scheduler

variable {s : Scheduler} {id : ThreadId} {ids ids' : List ThreadId}

/-! ## one cancellation -/

/-- The threads that are ready and are named. -/
def named (ids : List ThreadId) (s : Scheduler) : List Thread := s.ready.filter fun t => t.id ∈ ids

/-- The threads that are ready and are not named. -/
def unnamed (ids : List ThreadId) (s : Scheduler) : List Thread :=
  s.ready.filter fun t => t.id ∉ ids

@[simp] theorem named_nil (s : Scheduler) : s.named [] = [] := by simp [named]

@[simp] theorem unnamed_nil (s : Scheduler) : s.unnamed [] = s.ready := by simp [unnamed]

theorem mem_named : t ∈ s.named ids ↔ t ∈ s.ready ∧ t.id ∈ ids := by simp [named]

theorem mem_unnamed : t ∈ s.unnamed ids ↔ t ∈ s.ready ∧ t.id ∉ ids := by simp [unnamed]

/-- The scheduler in which the named threads have been cancelled. -/
def without (ids : List ThreadId) (s : Scheduler) : Scheduler :=
  { s with ready := s.unnamed ids, zombies := s.zombies ++ (s.named ids).map Thread.cancel }

/-- Why a thread is not cancelled that is not ready. -/
def refusal (id : ThreadId) (s : Scheduler) : ThreadError :=
  if ∃ t ∈ s.ready ++ s.zombies, t.id = id then .alreadyTerminated id else .unknownThread id

theorem named_of_not_ready (h : ∀ t ∈ s.ready, t.id ≠ id) :
    s.named [id] = [] ∧ s.unnamed [id] = s.ready := by
  simpa [named, unnamed] using h

theorem named_of_ready (h : s.Placed) (hr : s.ready = front ++ t :: back) :
    s.named [t.id] = [t] ∧ s.unnamed [t.id] = front ++ back := by
  have hnd := h.nodup_ready
  rw [hr, (List.perm_middle.map Thread.id).nodup_iff, List.map_cons, List.nodup_cons] at hnd
  have hothers : ∀ u ∈ front ++ back, u.id ≠ t.id := by
    intro u hu heq
    exact hnd.1 (heq ▸ List.mem_map_of_mem hu)
  obtain ⟨hnamed, hunnamed⟩ := named_of_not_ready (s := { s with ready := front ++ back }) hothers
  simp only [named, unnamed, List.filter_append, List.append_eq_nil_iff] at hnamed hunnamed
  rw [named, unnamed, hr, List.filter_append, List.filter_append,
    List.filter_cons_of_pos (by simp), List.filter_cons_of_neg (by simp), hnamed.1, hnamed.2]
  exact ⟨rfl, hunnamed⟩

/-- **What a cancellation does**: the thread that it names, if it is ready. -/
theorem act_cancel (h : s.Placed) (id : ThreadId) :
    s.act (.cancel id) =
      { answer := if ∃ t ∈ s.ready, t.id = id then .done else .refused (s.refusal id)
        scheduler := s.without [id]
        released := (s.named [id]).filterMap Thread.stack? } := by
  cases ready_cases s id with
  | inl hsome =>
      obtain ⟨front, t, back, hr, rfl⟩ := hsome
      have hready : ∃ u ∈ s.ready, u.id = t.id := ⟨t, by simp [hr], rfl⟩
      obtain ⟨hnamed, hunnamed⟩ := named_of_ready h hr
      simp only [act, cancel_append h hr, without, hnamed, hunnamed, if_pos hready]
      cases hstack : t.stack? <;> simp [hstack]
  | inr hnone =>
      have hready : ¬ ∃ t ∈ s.ready, t.id = id := by simpa using hnone
      have hfind : s.ready.find? (fun t => t.id = id) = none := by simpa using hnone
      obtain ⟨hnamed, hunnamed⟩ := named_of_not_ready hnone
      have hfound : (s.find? id).isSome ↔ ∃ t ∈ s.ready ++ s.zombies, t.id = id := by
        simp [find?, or_and_right, exists_or]
      simp only [act, cancel, hfind, without, hnamed, hunnamed, if_neg hready, refusal, ← hfound]
      cases s.find? id <;> simp

/-- The scheduler after a cancellation is again one that threads can be
cancelled in. -/
theorem Placed.without (h : s.Placed) (id : ThreadId) : (s.without [id]).Placed := by
  simpa only [act_cancel h] using h.act (.cancel id)

/-! ## a row of cancellations -/

theorem unnamed_cons (s : Scheduler) (id : ThreadId) (ids : List ThreadId) :
    s.unnamed (id :: ids) = (s.without [id]).unnamed ids := by
  simp [unnamed, without, List.filter_filter, Bool.and_comm]

/-- The first of the named threads comes first. -/
theorem named_cons (s : Scheduler) (id : ThreadId) (ids : List ThreadId) :
    (s.named (id :: ids)).Perm (s.named [id] ++ (s.without [id]).named ids) := by
  have hfirst : (s.named (id :: ids)).filter (fun t => t.id = id) = s.named [id] := by
    simp only [named, List.filter_filter]
    exact List.filter_congr (by simp +contextual)
  have hothers : (s.named (id :: ids)).filter (fun t => !decide (t.id = id)) =
      (s.without [id]).named ids := by
    simp only [named, without, unnamed, List.filter_filter]
    exact List.filter_congr (by grind)
  rw [← hfirst, ← hothers]
  exact (List.filter_append_perm _ _).symm

/-- **The scheduler after a row of cancellations**, but for the order of its
zombies. -/
theorem reordered_cancels (h : s.Placed) (ids : List ThreadId) :
    (s.without ids).Reordered (s.after (ids.map .cancel)) := by
  induction ids generalizing s with
  | nil => exact ⟨s.zombies, by simp [without], by simp [without]⟩
  | cons id ids ih =>
      have hzombies : (s.without (id :: ids)).zombies.Perm
          ((s.without [id]).without ids).zombies := by
        simpa [without] using ((s.named_cons id ids).map Thread.cancel).append_left s.zombies
      have hready : (s.without (id :: ids)).ready = ((s.without [id]).without ids).ready :=
        s.unnamed_cons id ids
      have hsteps : (s.without (id :: ids)).Reordered ((s.without [id]).without ids) :=
        ⟨_, hzombies, by rw [hready]; rfl⟩
      rw [List.map_cons, after_cons, act_cancel h]
      exact hsteps.trans (ih (h.without id))

/-- The stacks of the named threads are given up. -/
theorem released_cancels (h : s.Placed) (ids : List ThreadId) :
    (s.released (ids.map .cancel)).Perm ((s.named ids).filterMap Thread.stack?) := by
  induction ids generalizing s with
  | nil => simp [released]
  | cons id ids ih =>
      have hfirst := (s.named_cons id ids).filterMap Thread.stack?
      have hothers := (ih (h.without id)).append_left ((s.named [id]).filterMap Thread.stack?)
      rw [List.map_cons, released, act_cancel h]
      rw [List.filterMap_append] at hfirst
      exact hothers.trans hfirst.symm

/-! ### the answers -/

/-- What the calls that name `id` are answered in a row of cancellations, in
their order. -/
def verdicts (id : ThreadId) (ids : List ThreadId) (s : Scheduler) : List Answer :=
  (ids.zip (s.answers (ids.map .cancel))).filterMap fun call =>
    if call.1 = id then some call.2 else none

/-- To cancel a thread does not change why others are not cancelled, nor why it
is not cancelled again. -/
theorem refusal_without (s : Scheduler) (id other : ThreadId) :
    (s.without [other]).refusal id = s.refusal id := by
  have hthreads : (∃ t ∈ (s.without [other]).ready ++ (s.without [other]).zombies, t.id = id) ↔
      ∃ t ∈ s.ready ++ s.zombies, t.id = id := by
    simp only [without, List.mem_append, List.mem_map, mem_named, mem_unnamed, List.mem_singleton]
    constructor
    · rintro ⟨t, ⟨hready, -⟩ | hzombie | ⟨u, ⟨hready, -⟩, rfl⟩, rfl⟩
      · exact ⟨t, .inl hready, rfl⟩
      · exact ⟨t, .inr hzombie, rfl⟩
      · exact ⟨u, .inl hready, rfl⟩
    · rintro ⟨t, hready | hzombie, rfl⟩
      · by_cases ht : t.id = other
        · exact ⟨t.cancel, .inr (.inr ⟨t, ⟨hready, ht⟩, rfl⟩), rfl⟩
        · exact ⟨t, .inl ⟨hready, ht⟩, rfl⟩
      · exact ⟨t, .inr (.inl hzombie), rfl⟩
  simp only [refusal, hthreads]

theorem verdicts_cons (h : s.Placed) (id other : ThreadId) (ids : List ThreadId) :
    s.verdicts id (other :: ids) =
      if other = id then
        (if ∃ t ∈ s.ready, t.id = id then .done else .refused (s.refusal id)) ::
          (s.without [other]).verdicts id ids
      else (s.without [other]).verdicts id ids := by
  by_cases hid : other = id <;> simp [verdicts, answers, act_cancel h, hid]

/-- A thread that is not ready is refused every time. -/
theorem verdicts_of_not_ready (h : s.Placed) (hid : ¬ ∃ t ∈ s.ready, t.id = id)
    (ids : List ThreadId) :
    s.verdicts id ids = List.replicate (ids.count id) (.refused (s.refusal id)) := by
  induction ids generalizing s with
  | nil => rfl
  | cons other ids ih =>
      have hid' : ¬ ∃ t ∈ (s.without [other]).ready, t.id = id := by
        grind [without, mem_unnamed]
      rw [verdicts_cons h, ih (h.without other) hid', refusal_without, if_neg hid]
      by_cases heq : other = id
      · simp [heq, List.replicate_succ]
      · simp [heq]

/-- A thread that is ready is cancelled the first time, and then refused. -/
theorem verdicts_of_ready (h : s.Placed) (hid : ∃ t ∈ s.ready, t.id = id) (ids : List ThreadId) :
    s.verdicts id ids =
      (.done :: List.replicate (ids.count id) (.refused (s.refusal id))).take (ids.count id) := by
  induction ids generalizing s with
  | nil => rfl
  | cons other ids ih =>
      rw [verdicts_cons h, if_pos hid]
      by_cases heq : other = id
      · have hid' : ¬ ∃ t ∈ (s.without [other]).ready, t.id = id := by
          grind [without, mem_unnamed]
        rw [if_pos heq, verdicts_of_not_ready (h.without other) hid', refusal_without, heq,
          List.count_cons_self, List.take_succ_cons, List.take_replicate,
          Nat.min_eq_left (Nat.le_succ _)]
      · have hid' : ∃ t ∈ (s.without [other]).ready, t.id = id := by
          grind [without, mem_unnamed]
        rw [if_neg heq, ih (h.without other) hid', refusal_without, List.count_cons_of_ne heq]

/-- The answers to the calls that name one thread do not depend on the order. -/
theorem verdicts_perm (h : s.Placed) (hperm : ids.Perm ids') (id : ThreadId) :
    s.verdicts id ids = s.verdicts id ids' := by
  by_cases hid : ∃ t ∈ s.ready, t.id = id
  · rw [verdicts_of_ready h hid, verdicts_of_ready h hid, hperm.count_eq]
  · rw [verdicts_of_not_ready h hid, verdicts_of_not_ready h hid, hperm.count_eq]

/-! ## two rows in different orders -/

theorem named_perm (hperm : ids.Perm ids') (s : Scheduler) : s.named ids = s.named ids' := by
  simp [named, hperm.mem_iff]

/-- What is given back may be given back in any order. -/
theorem release_perm (hperm : freed.Perm freed') (pool : StackPool) :
    pool.release freed = pool.release freed' := by
  simp [StackPool.release, hperm.mem_iff]

theorem without_perm (hperm : ids.Perm ids') (s : Scheduler) : s.without ids = s.without ids' := by
  simp [without, unnamed, named_perm hperm, hperm.mem_iff]

/-- **The order in which threads are cancelled does not matter.**  Take the same
cancellations in two orders, of whatever threads there are or are not.

* The same thread is current as before, and those that are ready are those that
  were and are not named, in their order.
* The schedulers are equal but for the order of the zombies.
* The same stacks are mapped, whatever the host has mapped.
* The calls that name a thread are answered alike, whichever thread it is.

And where two schedulers differ in the order of their zombies only, they go on
to do so through any further operations, all of which answer alike and give up
the same stacks; threads are found and alive in both alike, and the two are
described by the same lines. -/
theorem cancellation_order_is_immaterial (history : List Operation) :
    let s := ({} : Scheduler).after history
    (∀ ids ids' : List ThreadId, ids.Perm ids' →
      let t := s.after (ids.map .cancel)
      let t' := s.after (ids'.map .cancel)
      t.current = s.current ∧ t.ready = s.ready.filter (fun u => u.id ∉ ids) ∧
        t.Reordered t' ∧
        (∀ b : Bench, b.scheduler = s →
          (b.after (ids.map .cancel)).pool = (b.after (ids'.map .cancel)).pool) ∧
        ∀ id, s.verdicts id ids = s.verdicts id ids') ∧
    ∀ s', s.Reordered s' → ∀ ops,
      let t := s.after ops
      let t' := s'.after ops
      s.answers ops = s'.answers ops ∧ s.released ops = s'.released ops ∧ t.Reordered t' ∧
        (∀ id, t.find? id = t'.find? id ∧ t.isRunning id = t'.isRunning id) ∧
        t.notices.Perm t'.notices := by
  intro s
  have h : s.Placed := placed_empty.after history
  refine ⟨?_, ?_⟩
  · intro ids ids' hperm t t'
    have ht : (s.without ids).Reordered t := reordered_cancels h ids
    have ht' : (s.without ids).Reordered t' := without_perm hperm s ▸ reordered_cancels h ids'
    have hreleased := released_cancels h ids
    have hreleased' := released_cancels h ids'
    rw [← named_perm hperm s] at hreleased'
    refine ⟨ht.current_eq, ht.ready_eq, ht.symm.trans ht', ?_, verdicts_perm h hperm⟩
    intro b hb
    rw [Bench.pool_after, Bench.pool_after, hb, release_perm (hreleased.trans hreleased'.symm)]
  · intro s' hreordered ops t t'
    obtain ⟨hanswers, hreleased, hafter⟩ := hreordered.after h ops
    have ht : t.Placed := h.after ops
    exact ⟨hanswers, hreleased, hafter,
      fun id => ⟨hafter.find?_eq ht id, hafter.isRunning_eq ht id⟩, hafter.notices⟩

/-- Four calls cancel the second and the third thread, in two orders.  The zombies
stand in different orders, and nothing that follows shows it. -/
theorem four_cancellations_in_two_orders :
    let history : List Operation :=
      [.start 4096, .spawn ⟨0, .native⟩ 1 ⟨0, 4096, 8192⟩, .spawn ⟨0, .foreign⟩ 2 ⟨1, 12288, 8192⟩]
    let s := ({} : Scheduler).after history
    let ids : List ThreadId := [⟨2⟩, ⟨3⟩, ⟨2⟩, ⟨9⟩]
    let ids' : List ThreadId := [⟨3⟩, ⟨9⟩, ⟨2⟩, ⟨2⟩]
    let t := s.after (ids.map .cancel)
    let t' := s.after (ids'.map .cancel)
    t.zombies ≠ t'.zombies ∧ t.Reordered t' ∧
      s.verdicts ⟨2⟩ ids = [.done, .refused (.alreadyTerminated ⟨2⟩)] ∧
      s.verdicts ⟨2⟩ ids' = [.done, .refused (.alreadyTerminated ⟨2⟩)] ∧
      ∀ ops, t.answers ops = t'.answers ops := by
  intro history s ids ids' t t'
  have hperm : ids.Perm ids' := by decide
  obtain ⟨-, -, hreordered, -, hverdicts⟩ :=
    (cancellation_order_is_immaterial history).1 ids ids' hperm
  have ht : t = ({} : Scheduler).after (history ++ ids.map .cancel) := (after_append ..).symm
  have hlater := (cancellation_order_is_immaterial (history ++ ids.map .cancel)).2
  rw [← ht] at hlater
  have hverdict : s.verdicts ⟨2⟩ ids = [.done, .refused (.alreadyTerminated ⟨2⟩)] := by decide
  exact ⟨by decide, hreordered, hverdict, hverdicts ⟨2⟩ ▸ hverdict,
    fun ops => (hlater t' hreordered ops).1⟩

end GreenThreads.Scheduler
