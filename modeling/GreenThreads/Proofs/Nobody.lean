import GreenThreads.Proofs.Skipping
import GreenThreads.Scheduler.Bench

/-!
# GreenThreads.Proofs.Nobody

No thread is called `nobody`, whatever is done to a scheduler, also through its
private operations and in the places of its threads: `Bench.Reached` holds of
all that can come of it, started or not.

* No operation makes an identity up (`ids_act_subset`), so every identity is one
  that was given out, and none of these is zero (`Bench.Reached.named`).
* So nobody is found, cancelled, or waited for to the end.

The same zero stands for the current thread where there is none, and two
operations compare with that before they look for the thread.  The main
statement, `nobody_is_no_thread`, says what they answer then.
-/

namespace GreenThreads.Scheduler

variable {s : Scheduler}

/-! ## no operation makes an identity up -/

theorem ids_threadsFinished (s : Scheduler) (v : Word) :
    (s.threadsFinished v).map Thread.id = s.ids := by
  cases hc : s.current <;> simp [threadsFinished, ids, threads, hc]

theorem ids_retire_perm (s : Scheduler) (v : Word) : (s.retire v).2.ids.Perm s.ids := by
  have hperm := (s.retire_conserves v).1.map Thread.id
  split at hperm
  · rwa [ids_threadsFinished] at hperm
  · exact hperm

theorem ids_cancel_subset {id : ThreadId} (h : s.cancel id = .ok (freed, s')) :
    s'.ids ⊆ s.ids := by
  unfold cancel at h
  split at h
  · split at h <;> contradiction
  · next t ht =>
      split at h
      · obtain ⟨-, rfl⟩ := Prod.mk.inj (Except.ok.inj h)
        have hready : t.id ∈ s.ready.map Thread.id :=
          List.mem_map_of_mem (List.mem_of_find?_eq_some ht)
        have hrest : (s.ready.eraseP fun t => t.id = id).map Thread.id ⊆ s.ready.map Thread.id :=
          List.map_subset _ List.eraseP_subset
        intro other hother
        simp only [ids, threads, List.map_append, List.mem_append, List.map_cons, List.map_nil,
          List.mem_singleton, Thread.id_cancel] at hother ⊢
        grind
      · contradiction

/-- **No operation makes an identity up**: a thread has one that some thread
had, or the one that is to be given out next. -/
theorem ids_act_subset (s : Scheduler) (o : Operation) :
    (s.act o).scheduler.ids ⊆ s.nextId :: s.ids := by
  cases o with
  | allocateId | reap => exact List.subset_cons_self ..
  | start size => exact List.cons_subset.mpr ⟨List.mem_cons_self, List.nil_subset _⟩
  | spawn | spawnHosted =>
      exact ((ids_add s.allocateId.2 _).trans List.perm_append_comm).subset
  | rotate => exact List.subset_cons_of_subset _ (s.rotate_conserves.1.map _).subset
  | retire v => exact List.subset_cons_of_subset _ (s.ids_retire_perm v).subset
  | cancel id =>
      cases scheduler_act_cancel s id with
      | inl heq => rw [heq]; exact List.subset_cons_self ..
      | inr hok => exact List.subset_cons_of_subset _ (ids_cancel_subset hok.choose_spec)
  | beginJoin id =>
      cases scheduler_act_beginJoin s id with
      | inl heq => rw [heq]; exact List.subset_cons_self ..
      | inr heq => rw [heq, ids_setJoining]; exact List.subset_cons_self ..
  | endJoin id => rw [scheduler_act_endJoin, ids_setJoining]; exact List.subset_cons_self ..

theorem nextId_popRunnable (s : Scheduler) : s.popRunnable.2.nextId = s.nextId := by
  rw [popRunnable_eq]
  rfl

theorem nextId_popNext (s : Scheduler) : s.popNext.2.nextId = s.nextId := by
  rw [popNext_eq]
  exact s.nextId_popRunnable

theorem nextId_rotate (s : Scheduler) : s.rotate.2.nextId = s.nextId := by
  have hpop := s.nextId_popNext
  unfold rotate
  split
  · rfl
  · split
    · rfl
    · split <;> rename_i heq <;> rw [heq] at hpop <;> exact hpop

theorem nextId_retire (s : Scheduler) (v : Word) : (s.retire v).2.nextId = s.nextId := by
  have hpop := s.nextId_popNext
  unfold retire
  split
  · rfl
  · split <;> rename_i heq <;> rw [heq] at hpop <;> exact hpop

theorem nextId_cancel {id : ThreadId} (h : s.cancel id = .ok (freed, s')) :
    s'.nextId = s.nextId := by
  unfold cancel at h
  split at h
  · split at h <;> contradiction
  · split at h
    · obtain ⟨-, rfl⟩ := Prod.mk.inj (Except.ok.inj h)
      rfl
    · contradiction

/-- Identities are only ever given out. -/
theorem nextId_act_le (s : Scheduler) (o : Operation) :
    s.nextId.val ≤ (s.act o).scheduler.nextId.val := by
  cases o with
  | allocateId | start | spawn | spawnHosted => exact Nat.le_succ _
  | reap => exact Nat.le_refl _
  | rotate => exact Nat.le_of_eq (congrArg ThreadId.val s.nextId_rotate.symm)
  | retire v => exact Nat.le_of_eq (congrArg ThreadId.val (s.nextId_retire v).symm)
  | cancel id =>
      cases scheduler_act_cancel s id with
      | inl heq => exact Nat.le_of_eq (by rw [heq])
      | inr hok => exact Nat.le_of_eq (congrArg ThreadId.val (nextId_cancel hok.choose_spec).symm)
  | beginJoin id =>
      cases scheduler_act_beginJoin s id with
      | inl heq => exact Nat.le_of_eq (by rw [heq])
      | inr heq => rw [heq]; exact Nat.le_refl _
  | endJoin id => rw [scheduler_act_endJoin]; exact Nat.le_refl _

/-! ## all that can come of a scheduler -/

namespace Bench

variable {b : Bench}

/-- The bench comes from a new scheduler in some number of steps, on any host. -/
inductive Reached : Bench → Prop where
  | new {host : Host} : Reached { pool := { host } }
  | step {b : Bench} {step : Step} (h : Reached b) (hstep : b.step step = .ok e) : Reached e.bench

/-- The identities of the threads in the scheduler and of those held. -/
def ids (b : Bench) : List ThreadId := b.scheduler.ids ++ b.held.map Thread.id

/-- What comes of a bench whose threads have the identities they had, or the
one that was to be given out next. -/
structure Keeps (b b' : Bench) : Prop where
  ids : b'.ids ⊆ b.scheduler.nextId :: b.ids
  nextId : b.scheduler.nextId.val ≤ b'.scheduler.nextId.val

theorem Keeps.refl (b : Bench) : b.Keeps b := ⟨List.subset_cons_self .., Nat.le_refl _⟩

theorem keeps_operate (b : Bench) (o : Operation) : b.Keeps (b.operate o).bench where
  ids := by
    have hids := ids_act_subset b.scheduler o
    simp only [ids, operate, update]
    exact List.append_subset.mpr
      ⟨List.Subset.trans hids (List.cons_subset_cons _ (List.subset_append_left ..)),
        List.subset_cons_of_subset _ (List.subset_append_right ..)⟩
  nextId := nextId_act_le b.scheduler o

/-- An action in the place of a thread leaves it who it is. -/
theorem keeps_act {put : Thread → Scheduler} {a : Thread.Action}
    (hids : ∀ t ∈ place, (put (t.act a).thread).ids = b.scheduler.ids)
    (hnext : ∀ t, (put t).nextId = b.scheduler.nextId) : b.Keeps (b.act place put a).bench := by
  unfold act
  split
  · exact .refl b
  · next t =>
      refine ⟨?_, Nat.le_of_eq (congrArg ThreadId.val (hnext _).symm)⟩
      simp only [ids, update, hids t rfl]
      exact List.subset_cons_self ..

theorem map_id_set {l : List Thread} (h : l[i]? = some t) (a : Thread.Action) :
    (l.set i (t.act a).thread).map Thread.id = l.map Thread.id := by
  have hi : (l.map Thread.id)[i]? = some t.id := by rw [List.getElem?_map, h]; rfl
  obtain ⟨hlt, hget⟩ := List.getElem?_eq_some_iff.mp hi
  rw [List.map_set, t.id_act, ← hget, List.set_getElem_self]

/-- A thread that is popped is held, and one that is passed over is a zombie. -/
theorem keeps_popRunnable (b : Bench) :
    b.Keeps
      { b with
        scheduler := b.scheduler.popRunnable.2
        held := b.held ++ b.scheduler.popRunnable.1.toList } := by
  refine ⟨?_, Nat.le_of_eq (congrArg ThreadId.val b.scheduler.nextId_popRunnable.symm)⟩
  have hready := b.scheduler.ready_eq_append
  rw [popRunnable_eq]
  intro id hid
  cases hcand : b.scheduler.candidates <;>
    simp only [ids, Scheduler.ids, threads, skipTo, hcand, hready, List.head?_nil, List.head?_cons,
      List.tail_nil, List.tail_cons, Option.toList_none, Option.toList_some, List.map_append,
      List.map_cons, List.map_nil, List.mem_append, List.mem_cons] at hid ⊢ <;>
    grind

/-- **No step makes an identity up.** -/
theorem keeps_step {step : Step} (h : b.step step = .ok e) : b.Keeps e.bench := by
  cases step with
  | operation o =>
      obtain rfl := Except.ok.inj h
      exact b.keeps_operate o
  | spawn arg =>
      have hspawn : b.spawn arg = .ok e := h
      unfold spawn at hspawn
      split at hspawn
      · contradiction
      · next e pool _ =>
          obtain rfl := Except.ok.inj hspawn
          obtain ⟨hids, hnext⟩ := keeps_operate { b with pool } .allocateId
          exact ⟨hids, hnext⟩
      · next stack pool _ =>
          obtain rfl := Except.ok.inj hspawn
          obtain ⟨hids, hnext⟩ := keeps_operate { b with pool } (.spawn ⟨0, .native⟩ arg stack)
          exact ⟨hids, hnext⟩
  | popRunnable =>
      obtain rfl := Except.ok.inj h
      exact b.keeps_popRunnable
  | addHeld =>
      simp only [Bench.step] at h
      split at h
      · obtain rfl := Except.ok.inj h
        exact .refl b
      · next t held hheld =>
          obtain rfl := Except.ok.inj h
          refine ⟨?_, Nat.le_refl _⟩
          have hadd := (ids_add b.scheduler t).append_right (held.map Thread.id)
          rw [List.append_assoc] at hadd
          simp only [ids, hheld]
          exact List.subset_cons_of_subset _ hadd.subset
  | onCurrent a =>
      obtain rfl := Except.ok.inj h
      refine keeps_act (fun t ht => ?_) fun _ => rfl
      exact ids_setCurrent ht (t.id_act a)
  | onReady index a =>
      obtain rfl := Except.ok.inj h
      refine keeps_act (fun t ht => ?_) fun _ => rfl
      simp only [Scheduler.ids, threads, List.map_append, map_id_set ht]
  | onZombie index a =>
      obtain rfl := Except.ok.inj h
      refine keeps_act (fun t ht => ?_) fun _ => rfl
      simp only [Scheduler.ids, threads, List.map_append, map_id_set ht]
  | stackSize | readyIsEmpty | currentId | isRunning | find | debug =>
      obtain rfl := Except.ok.inj h
      exact .refl b

/-- **Nobody is among the threads**, and the identity to be given out next is
not nobody's. -/
theorem Reached.named (h : b.Reached) :
    0 < b.scheduler.nextId.val ∧ .nobody ∉ b.ids := by
  induction h with
  | new => exact ⟨Nat.zero_lt_one, List.not_mem_nil⟩
  | @step e b step _ hstep ih =>
      obtain ⟨hids, hnext⟩ := keeps_step hstep
      refine ⟨Nat.lt_of_lt_of_le ih.1 hnext, fun hmem => ?_⟩
      cases List.mem_cons.mp (hids hmem) with
      | inl hnew => exact absurd ih.1 (by rw [← hnew]; decide)
      | inr hold => exact ih.2 hold

end Bench

/-! ## looking for a thread that is not there -/

section

variable {id : ThreadId}

theorem find?_eq_none (h : id ∉ s.ids) : s.find? id = none := by
  rw [find?, List.find?_eq_none]
  intro t ht heq
  refine h (of_decide_eq_true heq ▸ List.mem_map_of_mem ?_)
  rw [threads, List.append_assoc]
  exact List.mem_append_right _ ht

/-- Nobody is current where no thread is, and only there. -/
theorem currentId_eq_nobody_iff (h : .nobody ∉ s.ids) :
    s.currentId = .nobody ↔ s.current = none := by
  unfold currentId
  split
  · next hc => simp [hc]
  · next c hc =>
      refine iff_of_false (fun heq => h ?_) (by simp [hc])
      exact heq ▸ mem_ids_of_mem_living (by simp [living, hc])

theorem isRunning_of_find?_eq_none (h : s.find? id = none) :
    s.isRunning id = true ↔ s.currentId = id := by
  simp [isRunning, h]

theorem cancel_of_find?_eq_none (h : s.find? id = none) :
    s.cancel id = .error (.unknownThread id) := by
  have hready : s.ready.find? (fun t => t.id = id) = none := by
    rw [find?, List.find?_append, Option.or_eq_none_iff] at h
    exact h.1
  simp only [cancel, hready, h]

theorem beginJoin_of_find?_eq_none (h : s.find? id = none) :
    s.beginJoin id =
      .error (if id = s.currentId then .selfJoin id else .unknownThread id) := by
  simp only [beginJoin, h]
  split <;> rfl

theorem endJoin_of_find?_eq_none (h : s.find? id = none) :
    (s.endJoin id).1 = .error (.unknownThread id) := by
  have hcleared : (s.setJoining .nobody).find? id = none := h
  simp only [endJoin, hcleared, Option.bind_none]

/-- A wait is refused as reciprocal where the other thread waits for whoever is
current, or for nobody where nobody is. -/
theorem beginJoin_eq_reciprocalJoin_iff (h : s.find? id = some t) :
    s.beginJoin id = .error (.reciprocalJoin id) ↔
      id ≠ s.currentId ∧ t.joining = s.currentId := by
  simp only [beginJoin, h]
  split
  · simp_all
  · split <;> simp_all

end

/-- **Nobody is no thread**, whatever has been done to a scheduler.

* Nobody is not found, cannot be cancelled, and is not waited for to the end.
* Where there is a current thread, nobody does not run either and cannot be
  waited for, and a wait is refused as reciprocal exactly when the other thread
  has recorded a wait for the current one.
* Where there is none, nobody passes for the current thread: nobody runs, a wait
  for nobody is one for oneself, and a wait for a thread is reciprocal exactly
  when that thread waits for nobody. -/
theorem nobody_is_no_thread {b : Bench} (h : b.Reached) :
    let s := b.scheduler
    (s.find? .nobody = none ∧ s.cancel .nobody = .error (.unknownThread .nobody) ∧
      (s.endJoin .nobody).1 = .error (.unknownThread .nobody)) ∧
    (s.isRunning .nobody = true ↔ s.current = none) ∧
    s.beginJoin .nobody =
      .error (if s.current = none then .selfJoin .nobody else .unknownThread .nobody) ∧
    ∀ id t, s.find? id = some t →
      (s.beginJoin id = .error (.reciprocalJoin id) ↔
        (∃ c, s.current = some c ∧ id ≠ c.id ∧ t.joining = c.id) ∨
          s.current = none ∧ t.joining = .nobody) := by
  intro s
  have hnobody : .nobody ∉ s.ids := fun hmem => h.named.2 (List.mem_append_left _ hmem)
  have hfind := find?_eq_none hnobody
  have hcurrent := currentId_eq_nobody_iff hnobody
  refine ⟨⟨hfind, cancel_of_find?_eq_none hfind, endJoin_of_find?_eq_none hfind⟩, ?_, ?_, ?_⟩
  · rw [isRunning_of_find?_eq_none hfind, hcurrent]
  · rw [beginJoin_of_find?_eq_none hfind]
    simp only [eq_comm (a := ThreadId.nobody), hcurrent]
  · intro id t ht
    rw [beginJoin_eq_reciprocalJoin_iff ht]
    cases hc : s.current with
    | none =>
        have hid : id ≠ .nobody := by
          rintro rfl
          rw [hfind] at ht
          contradiction
        rw [hcurrent.mpr hc]
        simp [hid]
    | some c =>
        have hcid : s.currentId = c.id := by rw [currentId, hc]
        simp [hcid]

/-- A thread is queued before the start.  Nobody runs, and since the thread waits
for nobody it cannot be waited for. -/
theorem nobody_passes_for_current :
    ∃ b : Bench, b.Reached ∧ b.scheduler.current = none ∧
      b.scheduler.find? ⟨1⟩ = some (.hosted ⟨1⟩) ∧
      b.scheduler.isRunning .nobody = true ∧
      b.scheduler.beginJoin .nobody = .error (.selfJoin .nobody) ∧
      b.scheduler.beginJoin ⟨1⟩ = .error (.reciprocalJoin ⟨1⟩) := by
  have hspawn : ({} : Bench).step (.operation .spawnHosted) = .ok (Bench.operate {} .spawnHosted) :=
    rfl
  have h := Bench.Reached.new.step hspawn
  obtain ⟨-, hruns, hjoins, hreciprocal⟩ := nobody_is_no_thread h
  exact ⟨_, h, rfl, rfl, hruns.mpr rfl, hjoins, (hreciprocal ⟨1⟩ _ rfl).mpr (.inr ⟨rfl, rfl⟩)⟩

/-- Where there is no current thread, nobody is taken to be running. -/
theorem nobody_may_run :
    ¬ ∀ b : Bench, b.Reached →
      let s := b.scheduler
      s.find? .nobody = none ∧ s.isRunning .nobody = false ∧
        s.cancel .nobody = .error (.unknownThread .nobody) ∧
        s.beginJoin .nobody = .error (.unknownThread .nobody) ∧
        (s.endJoin .nobody).1 = .error (.unknownThread .nobody) ∧
        ∀ id t, s.find? id = some t → s.beginJoin id = .error (.reciprocalJoin id) →
          ∃ c, s.current = some c ∧ t.joining = c.id := by
  intro h
  have hruns : ({} : Scheduler).isRunning .nobody = false := (h {} .new).2.1
  contradiction

end GreenThreads.Scheduler
