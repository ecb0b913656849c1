import GreenThreads.Proofs.Placement
import GreenThreads.Scheduler.Bench
import Mathlib.Data.List.Find

/-!
# GreenThreads.Proofs.Reordering

Nobody can tell in which order the threads have ended.

Two schedulers are `Reordered` if they are equal but for the order in which
their zombies are queued.  A zombie is only ever looked for by its identity, and
no other thread has that identity, so it is found wherever it stands:

* `Reordered.act` — one operation answers alike, gives up the same stacks, and
  leaves schedulers that are again reordered;
* `Reordered.after` — so does any history, with the `answers` and the stacks
  `released` on the way.

Only a description of the threads shows the order, and only as the order of its
lines (`Reordered.notices`).
-/

namespace GreenThreads.Scheduler

variable {s s' s'' : Scheduler}

/-! ## what a history shows -/

/-- What the operations of a history answer, in their order. -/
def answers (s : Scheduler) : List Operation → List Answer
  | [] => []
  | o :: history => (s.act o).answer :: (s.act o).scheduler.answers history

/-- The stacks that the operations of a history give up, in their order. -/
def released (s : Scheduler) : List Operation → List Stack
  | [] => []
  | o :: history => (s.act o).released ++ (s.act o).scheduler.released history

/-- The bench after a history of operations. -/
def Bench.after (b : Bench) (history : List Operation) : Bench :=
  history.foldl (fun b o => (b.operate o).bench) b

theorem release_release (pool : StackPool) (freed freed' : List Stack) :
    (pool.release freed).release freed' = pool.release (freed ++ freed') := by
  simp [StackPool.release, List.filter_filter, Bool.and_comm]

/-- The bench has given back what its scheduler has given up. -/
theorem Bench.pool_after (b : Bench) (history : List Operation) :
    (b.after history).pool = b.pool.release (b.scheduler.released history) := by
  induction history generalizing b with
  | nil => simp [after, released]
  | cons o history ih =>
      rw [after, List.foldl_cons, ← after, ih, released, ← release_release]
      rfl

/-! ## schedulers that differ in the order of their zombies -/

/-- The schedulers are equal but for the order of the zombies. -/
def Reordered (s s' : Scheduler) : Prop :=
  ∃ zombies, s.zombies.Perm zombies ∧ s' = { s with zombies }

namespace Reordered

theorem refl (s : Scheduler) : s.Reordered s := ⟨s.zombies, .refl _, rfl⟩

theorem symm (h : s.Reordered s') : s'.Reordered s := by
  obtain ⟨zombies, hperm, rfl⟩ := h
  exact ⟨s.zombies, hperm.symm, rfl⟩

theorem trans (h : s.Reordered s') (h' : s'.Reordered s'') : s.Reordered s'' := by
  obtain ⟨zombies, hperm, rfl⟩ := h
  obtain ⟨zombies', hperm', rfl⟩ := h'
  exact ⟨zombies', hperm.trans hperm', rfl⟩

theorem current_eq (h : s.Reordered s') : s'.current = s.current := by
  obtain ⟨zombies, -, rfl⟩ := h
  rfl

theorem ready_eq (h : s.Reordered s') : s'.ready = s.ready := by
  obtain ⟨zombies, -, rfl⟩ := h
  rfl

theorem threads (h : s.Reordered s') : s.threads.Perm s'.threads := by
  obtain ⟨zombies, hperm, rfl⟩ := h
  exact hperm.append_left _

/-- A description has the same lines. -/
theorem notices (h : s.Reordered s') : s.notices.Perm s'.notices := by
  have hthreads := h.threads
  obtain ⟨zombies, -, rfl⟩ := h
  exact (hthreads.map _).append_right _

theorem placed (h : s.Reordered s') (hs : s.Placed) : s'.Placed := by
  have hids := h.threads.map Thread.id
  obtain ⟨zombies, hperm, rfl⟩ := h
  exact hs.of_perm hids.symm rfl hs.living fun t ht => hs.ended t (hperm.symm.subset ht)

/-! ### looking threads up -/

/-- A thread is found wherever it stands, since its identity is its own. -/
theorem find?_eq (h : s.Reordered s') (hs : s.Placed) (id : ThreadId) :
    s.find? id = s'.find? id := by
  obtain ⟨zombies, hperm, rfl⟩ := h
  apply List.find?_eq_find?_of_perm (hperm.append_left _)
  rintro t ⟨ht, htid⟩ u ⟨hu, huid⟩
  have hid : t.id = u.id := (of_decide_eq_true htid).trans (of_decide_eq_true huid).symm
  have hfound := (hs.find?_eq ht).symm.trans (hid ▸ hs.find?_eq hu)
  exact Option.some.inj hfound

theorem isRunning_eq (h : s.Reordered s') (hs : s.Placed) (id : ThreadId) :
    s.isRunning id = s'.isRunning id := by
  have hfind := h.find?_eq hs id
  obtain ⟨zombies, -, rfl⟩ := h
  rw [isRunning, isRunning, hfind]
  rfl

/-! ### one operation -/

theorem setJoining (h : s.Reordered s') (target : ThreadId) :
    (s.setJoining target).Reordered (s'.setJoining target) := by
  obtain ⟨zombies, hperm, rfl⟩ := h
  exact ⟨zombies, hperm, rfl⟩

end Reordered

/-- Both operations answer alike, give up the same stacks, and leave schedulers
that are reordered. -/
structure Effect.Reordered (e e' : Effect) : Prop where
  answer : e.answer = e'.answer
  released : e.released = e'.released
  scheduler : e.scheduler.Reordered e'.scheduler

/-- A scheduler has not been started, or nobody is ready, or a thread can be
switched to. -/
theorem living_cases (s : Scheduler) :
    s.current = none ∨ s.ready = [] ∨
      ∃ c n rest, s.current = some c ∧ s.ready = n :: rest := by
  cases s.current <;> cases s.ready <;> simp

/-- Nothing is left of the stacks of those that have ended. -/
theorem Placed.filterMap_stack?_zombies (h : s.Placed) :
    s.zombies.filterMap Thread.stack? = [] := by
  rw [List.filterMap_eq_nil_iff]
  intro t ht
  simp [Thread.stack?, (h.ended t ht).context]

namespace Reordered

theorem start (h : s.Reordered s') (hs : s.Placed) (size : Nat) :
    (s.act (.start size)).Reordered (s'.act (.start size)) := by
  have hnone := hs.filterMap_stack?_zombies
  have hnone' := (h.placed hs).filterMap_stack?_zombies
  obtain ⟨zombies, -, rfl⟩ := h
  constructor
  · rfl
  · simp only [act, Scheduler.start, allocateId, List.filterMap_append, hnone, hnone']
  · exact .refl _

theorem rotate (h : s.Reordered s') (hs : s.Placed) :
    (s.act .rotate).Reordered (s'.act .rotate) := by
  have hs' := h.placed hs
  obtain ⟨zombies, hperm, rfl⟩ := h
  rcases s.living_cases with hc | hr | ⟨c, n, rest, hc, hr⟩
  · simp only [act, rotate_of_none hc, rotate_of_none (s := { s with zombies }) hc]
    exact ⟨rfl, rfl, zombies, hperm, rfl⟩
  · simp only [act, rotate_nil hr, rotate_nil (s := { s with zombies }) hr]
    exact ⟨rfl, rfl, zombies, hperm, rfl⟩
  · simp only [act, rotate_cons hs hc hr, rotate_cons hs' hc hr]
    exact ⟨rfl, rfl, zombies, hperm, rfl⟩

theorem retire (h : s.Reordered s') (hs : s.Placed) (v : Word) :
    (s.act (.retire v)).Reordered (s'.act (.retire v)) := by
  have hs' := h.placed hs
  obtain ⟨zombies, hperm, rfl⟩ := h
  rcases s.living_cases with hc | hr | ⟨c, n, rest, hc, hr⟩
  · simp only [act, retire_of_none hc, retire_of_none (s := { s with zombies }) hc]
    exact ⟨rfl, rfl, zombies, hperm, rfl⟩
  · simp only [act, retire_nil hr, retire_nil (s := { s with zombies }) hr]
    exact ⟨rfl, rfl, zombies, hperm, rfl⟩
  · simp only [act, retire_cons hs hc hr, retire_cons hs' hc hr]
    exact ⟨rfl, rfl, _, hperm.append_right _, rfl⟩

theorem cancel (h : s.Reordered s') (hs : s.Placed) (id : ThreadId) :
    (s.act (.cancel id)).Reordered (s'.act (.cancel id)) := by
  have hs' := h.placed hs
  have hfind := h.find?_eq hs id
  obtain ⟨zombies, hperm, rfl⟩ := h
  cases ready_cases s id with
  | inl hsome =>
      obtain ⟨front, t, back, hr, rfl⟩ := hsome
      simp only [act, cancel_append hs hr, cancel_append hs' hr]
      exact ⟨rfl, rfl, _, hperm.append_right _, rfl⟩
  | inr hnone =>
      have hready : s.ready.find? (fun t => t.id = id) = none := by simpa using hnone
      simp only [act, Scheduler.cancel, hready, ← hfind]
      cases s.find? id <;> exact ⟨rfl, rfl, zombies, hperm, rfl⟩

theorem beginJoin (h : s.Reordered s') (hs : s.Placed) (id : ThreadId) :
    (s.act (.beginJoin id)).Reordered (s'.act (.beginJoin id)) := by
  have hfind := h.find?_eq hs id
  obtain ⟨zombies, hperm, rfl⟩ := h
  have hcurrent : { s with zombies }.currentId = s.currentId := rfl
  simp only [act, Scheduler.beginJoin, hcurrent, ← hfind]
  by_cases hself : id = s.currentId
  · simpa [hself] using ⟨rfl, rfl, zombies, hperm, rfl⟩
  · cases s.find? id with
    | none => simpa [hself] using ⟨rfl, rfl, zombies, hperm, rfl⟩
    | some target =>
        by_cases hback : target.joining = s.currentId
        · simpa [hself, hback] using ⟨rfl, rfl, zombies, hperm, rfl⟩
        · simpa [hself, hback] using ⟨rfl, rfl, zombies, hperm, rfl⟩

theorem endJoin (h : s.Reordered s') (hs : s.Placed) (id : ThreadId) :
    (s.act (.endJoin id)).Reordered (s'.act (.endJoin id)) := by
  have hcleared := h.setJoining .nobody
  have hfind := hcleared.find?_eq (hs.setJoining .nobody) id
  simp only [act, Scheduler.endJoin, hfind]
  cases ((s'.setJoining .nobody).find? id).bind Thread.exitStatus with
  | none => exact ⟨rfl, rfl, hcleared⟩
  | some status => exact ⟨rfl, rfl, hcleared⟩

/-- **No operation shows in which order the zombies stand.** -/
theorem act (h : s.Reordered s') (hs : s.Placed) (o : Operation) :
    (s.act o).Reordered (s'.act o) := by
  cases o with
  | start size => exact h.start hs size
  | rotate => exact h.rotate hs
  | retire v => exact h.retire hs v
  | cancel id => exact h.cancel hs id
  | beginJoin id => exact h.beginJoin hs id
  | endJoin id => exact h.endJoin hs id
  | allocateId | spawn | spawnHosted | reap =>
      obtain ⟨zombies, hperm, rfl⟩ := h
      exact ⟨rfl, rfl, zombies, hperm, rfl⟩

/-! ### any history -/

/-- Nor does any history of operations, and the schedulers stay reordered. -/
theorem after (h : s.Reordered s') (hs : s.Placed) (history : List Operation) :
    s.answers history = s'.answers history ∧ s.released history = s'.released history ∧
      (s.after history).Reordered (s'.after history) := by
  induction history generalizing s s' with
  | nil => exact ⟨rfl, rfl, h⟩
  | cons o history ih =>
      have hnow := h.act hs o
      obtain ⟨hanswers, hreleased, hafter⟩ := ih hnow.scheduler (hs.act o)
      refine ⟨?_, ?_, hafter⟩
      · simp only [answers, hnow.answer, hanswers]
      · simp only [Scheduler.released, hnow.released, hreleased]

end Reordered

end GreenThreads.Scheduler
