import GreenThreads.Scheduler.Operation

/-!
# GreenThreads.Proofs.Placement

Every thread is in one place: it is current, it waits in the ready queue, or
it has ended and stays among the zombies.

`Scheduler.Placed` says so of a scheduler, and also what the place of a thread
tells about its descriptor.  Where it holds, no operation ever meets a thread
that cannot be switched to, so each operation is one equation:

* `rotate_cons`, `retire_cons` — the front of the ready queue becomes current;
* `cancel_append` — the thread leaves the ready queue and nothing else moves;
* `Placed.act` — every operation keeps the threads in their places;
* `one_place_after` — the threads in a scheduler are those that its history has
  put there.
-/

namespace GreenThreads

/-! ## descriptors by place -/

namespace Thread

/-- What is left of a thread that has ended. -/
structure HasEnded (t : Thread) : Prop where
  state : t.state = .done ∨ t.state = .cancelled
  context : t.context = none
  routine : t.routine = none
  joining : t.joining = .nobody

theorem isRunnable_hosted (id : ThreadId) : (hosted id).isRunnable := rfl

theorem isRunnable_create (id : ThreadId) (routine : Routine) (arg : Word) (stack : Stack) :
    (create id routine arg stack).isRunnable := rfl

theorem hasEnded_finish (t : Thread) (v : Word) : (t.finish v).HasEnded :=
  ⟨.inl rfl, rfl, rfl, rfl⟩

theorem hasEnded_cancel (t : Thread) : t.cancel.HasEnded := ⟨.inr rfl, rfl, rfl, rfl⟩

/-- What has ended tells how. -/
theorem HasEnded.exists_exitStatus {t : Thread} (h : t.HasEnded) :
    ∃ status, t.exitStatus = some status := by
  cases h.state with
  | inl hdone => exact ⟨.returned t.value, by rw [exitStatus, hdone]⟩
  | inr hcancelled => exact ⟨.cancelled, by rw [exitStatus, hcancelled]⟩

end Thread

/-- The change from one thread to another, which both must have registers for. -/
def Switch.between (out next : Thread) : Option Switch :=
  out.registers?.bind fun save => next.registers?.map fun load => ⟨save, load⟩

theorem Switch.exists_of_between {out next : Thread} (hout : out.isRunnable)
    (hnext : next.isRunnable) :
    ∃ save load, out.registers? = some save ∧ next.registers? = some load ∧
      between out next = some ⟨save, load⟩ := by
  obtain ⟨save, hsave⟩ := Thread.exists_registers hout
  obtain ⟨load, hload⟩ := Thread.exists_registers hnext
  exact ⟨save, load, hsave, hload, by rw [between, hsave, hload]; rfl⟩

namespace Scheduler

/-! ## threads and identities -/

/-- The threads that have not ended, the current one first. -/
def living (s : Scheduler) : List Thread := s.current.toList ++ s.ready

/-- The identities of all threads. -/
def ids (s : Scheduler) : List ThreadId := s.threads.map Thread.id

theorem threads_eq (s : Scheduler) : s.threads = s.living ++ s.zombies := rfl

theorem mem_ids_of_mem_living {s : Scheduler} (h : t ∈ s.living) : t.id ∈ s.ids :=
  List.mem_map_of_mem (List.mem_append_left _ h)

/-- Every thread is in one place, and its descriptor fits the place. -/
structure Placed (s : Scheduler) : Prop where
  nodup : s.ids.Nodup
  bounds : ∀ id ∈ s.ids, 1 ≤ id.val ∧ id.val < s.nextId.val
  nextId_pos : 1 ≤ s.nextId.val
  living : ∀ t ∈ s.living, t.isRunnable
  ended : ∀ t ∈ s.zombies, t.HasEnded

theorem placed_empty : ({} : Scheduler).Placed where
  nodup := .nil
  bounds := by simp [ids, threads]
  nextId_pos := by decide
  living := by simp [Scheduler.living]
  ended := by simp

namespace Placed

/-- Threads that only change places keep their identities and the bounds on
them. -/
theorem of_perm {s s' : Scheduler} (h : s.Placed) (hids : s'.ids.Perm s.ids)
    (hnext : s'.nextId = s.nextId) (hliving : ∀ t ∈ s'.living, t.isRunnable)
    (hended : ∀ t ∈ s'.zombies, t.HasEnded) : s'.Placed where
  nodup := hids.nodup_iff.mpr h.nodup
  bounds id hid := hnext ▸ h.bounds id (hids.mem_iff.mp hid)
  nextId_pos := hnext ▸ h.nextId_pos
  living := hliving
  ended := hended

theorem current {s : Scheduler} (h : s.Placed) (hc : s.current = some c) : c.isRunnable :=
  h.living c (by simp [Scheduler.living, hc])

theorem ready {s : Scheduler} (h : s.Placed) (ht : t ∈ s.ready) : t.isRunnable :=
  h.living t (List.mem_append_right _ ht)

theorem nodup_living {s : Scheduler} (h : s.Placed) : (s.living.map Thread.id).Nodup := by
  have hnd := h.nodup
  rw [ids, threads_eq, List.map_append] at hnd
  exact (List.nodup_append.mp hnd).1

theorem nodup_ready {s : Scheduler} (h : s.Placed) : (s.ready.map Thread.id).Nodup := by
  have hnd := h.nodup_living
  rw [Scheduler.living, List.map_append] at hnd
  exact (List.nodup_append.mp hnd).2.1

/-- The current thread is in no other place. -/
theorem ne_current {s : Scheduler} (h : s.Placed) (hc : s.current = some c)
    (ht : t ∈ s.ready ++ s.zombies) : t.id ≠ c.id := by
  have hnd := h.nodup
  rw [ids, threads, List.append_assoc, hc, List.map_append] at hnd
  exact ((List.nodup_append.mp hnd).2.2 c.id (by simp) t.id (List.mem_map_of_mem ht)).symm

theorem current_ne {s : Scheduler} (h : s.Placed) (hc : s.current = some c) (ht : t ∈ s.ready) :
    c.id ≠ t.id :=
  (h.ne_current hc (List.mem_append_left _ ht)).symm

/-- No thread is nobody. -/
theorem ne_nobody {s : Scheduler} {id : ThreadId} (h : s.Placed) (hid : id ∈ s.ids) :
    id ≠ .nobody := by
  rintro rfl
  exact absurd (h.bounds _ hid).1 (by decide)

/-- What has ended does not live. -/
theorem ne_of_mem_zombies {s : Scheduler} (h : s.Placed) (ht : t ∈ s.zombies)
    (hu : u ∈ s.living) : u.id ≠ t.id := by
  have hnd := h.nodup
  rw [ids, threads_eq, List.map_append] at hnd
  exact (List.nodup_append.mp hnd).2.2 u.id (List.mem_map_of_mem hu) t.id (List.mem_map_of_mem ht)

/-- A thread is in the ready queue once. -/
theorem ne_of_mem_front {s : Scheduler} (h : s.Placed) (hr : s.ready = front ++ t :: back) :
    ∀ a ∈ front, a.id ≠ t.id := by
  intro a ha
  have hnd := h.nodup_ready
  rw [hr, List.map_append] at hnd
  exact (List.nodup_append.mp hnd).2.2 a.id (List.mem_map_of_mem ha) t.id (by simp)

/-- A thread in the ready queue is found there by its identity. -/
theorem find?_ready {s : Scheduler} (h : s.Placed) (ht : t ∈ s.ready) :
    s.ready.find? (fun a => a.id = t.id) = some t := by
  obtain ⟨front, back, hr⟩ := List.append_of_mem ht
  have hfront := h.ne_of_mem_front hr
  rw [hr, List.find?_append, List.find?_eq_none.mpr (by simpa using hfront)]
  simp

end Placed

/-! ## what each operation does -/

theorem popRunnable_nil {s : Scheduler} (h : s.ready = []) : s.popRunnable = (none, s) := by
  obtain ⟨current, ready, zombies, retired, nextId, stackSize⟩ := s
  simp only at h
  subst h
  rfl

theorem popRunnable_cons {s : Scheduler} (h : s.ready = n :: rest) (hn : n.isRunnable) :
    s.popRunnable = (some n, { s with ready := rest }) := by
  simp [popRunnable, h, nextRunnable, hn]

theorem popNext_nil {s : Scheduler} (h : s.ready = []) : s.popNext = (none, s) := by
  rw [popNext_eq, popRunnable_nil h]
  rfl

theorem popNext_cons {s : Scheduler} (h : s.ready = n :: rest) (hn : n.isRunnable) :
    s.popNext = (n.registers?.map fun load => (n, load), { s with ready := rest }) := by
  rw [popNext_eq, popRunnable_cons h hn]
  rfl

theorem rotate_of_none {s : Scheduler} (h : s.current = none) : s.rotate = (none, s) := by
  simp [rotate, h]

/-- A thread that is alone keeps the processor. -/
theorem rotate_nil {s : Scheduler} (h : s.ready = []) : s.rotate = (none, s) := by
  cases hc : s.current with
  | none => exact rotate_of_none hc
  | some c => cases hsave : c.registers? <;> simp [rotate, hc, hsave, popNext_nil h]

/-- The current thread goes to the back of the ready queue and the front one
becomes current. -/
theorem rotate_cons {s : Scheduler} (h : s.Placed) (hc : s.current = some c)
    (hr : s.ready = n :: rest) :
    s.rotate =
      (Switch.between c n, { s with current := some n, ready := rest ++ [c] }) := by
  have hn : n.isRunnable := h.ready (by simp [hr])
  obtain ⟨save, load, hsave, hload, hswitch⟩ := Switch.exists_of_between (h.current hc) hn
  simp [rotate, hc, hsave, popNext_cons hr hn, hload, hswitch]

theorem retire_of_none {s : Scheduler} (h : s.current = none) : s.retire v = (none, s) := by
  simp [retire, h]

/-- The last thread does not end. -/
theorem retire_nil {s : Scheduler} (h : s.ready = []) : s.retire v = (none, s) := by
  cases hc : s.current with
  | none => exact retire_of_none hc
  | some c => simp [retire, hc, popNext_nil h]

/-- The current thread goes to the zombies, its stack is set aside, and the
front of the ready queue becomes current. -/
theorem retire_cons {s : Scheduler} (h : s.Placed) (hc : s.current = some c)
    (hr : s.ready = n :: rest) :
    s.retire v =
      (n.registers?,
        { s with
          current := some n
          ready := rest
          zombies := s.zombies ++ [c.finish v]
          retired := s.retired ++ c.stack?.toList }) := by
  have hn : n.isRunnable := h.ready (by simp [hr])
  obtain ⟨load, hload⟩ := Thread.exists_registers hn
  simp [retire, hc, popNext_cons hr hn, hload]

/-- A thread that is ready leaves the queue for the zombies; the others keep
their order. -/
theorem cancel_append {s : Scheduler} (h : s.Placed) (hr : s.ready = front ++ t :: back) :
    s.cancel t.id =
      .ok (t.stack?.toList,
        { s with ready := front ++ back, zombies := s.zombies ++ [t.cancel] }) := by
  have ht : t ∈ s.ready := by simp [hr]
  have hrun := Thread.isRunnable_iff.mp (h.ready ht)
  have hfront := h.ne_of_mem_front hr
  have hfind := h.find?_ready ht
  have herase : s.ready.eraseP (fun a => a.id = t.id) = front ++ back := by
    rw [hr, List.eraseP_append_right _ (by simpa using hfront)]
    simp
  simp [cancel, hfind, hrun.1, herase]

/-- A thread that is not ready is not cancelled. -/
theorem cancel_eq_error {s : Scheduler} {id : ThreadId} (h : ∀ t ∈ s.ready, t.id ≠ id) :
    ∃ e, s.cancel id = .error e := by
  have hfind : s.ready.find? (fun a => a.id = id) = none :=
    List.find?_eq_none.mpr (by simpa using h)
  simp only [cancel, hfind]
  split
  · exact ⟨_, rfl⟩
  · exact ⟨_, rfl⟩

/-- The thread of a given identity, if it is ready, and the queue around it. -/
theorem ready_cases (s : Scheduler) (id : ThreadId) :
    (∃ front t back, s.ready = front ++ t :: back ∧ t.id = id) ∨ ∀ t ∈ s.ready, t.id ≠ id := by
  by_cases h : ∃ t ∈ s.ready, t.id = id
  · obtain ⟨t, ht, hid⟩ := h
    obtain ⟨front, back, hr⟩ := List.append_of_mem ht
    exact .inl ⟨front, t, back, hr, hid⟩
  · exact .inr fun t ht hid => h ⟨t, ht, hid⟩

/-- What a cancellation has done that was not refused. -/
theorem exists_of_cancel {s s' : Scheduler} {id : ThreadId} (h : s.Placed)
    (hs : s.cancel id = .ok (freed, s')) :
    ∃ front t back, s.ready = front ++ t :: back ∧ t.id = id ∧ freed = t.stack?.toList ∧
      s' = { s with ready := front ++ back, zombies := s.zombies ++ [t.cancel] } := by
  cases ready_cases s id with
  | inr hnone =>
      obtain ⟨e, he⟩ := cancel_eq_error hnone
      simp [he] at hs
  | inl hsome =>
      obtain ⟨front, t, back, hr, rfl⟩ := hsome
      rw [cancel_append h hr] at hs
      obtain ⟨hfreed, heq⟩ := Prod.mk.inj (Except.ok.inj hs)
      exact ⟨front, t, back, hr, rfl, hfreed.symm, heq.symm⟩

/-- A wait that is accepted is recorded. -/
theorem eq_setJoining_of_beginJoin {s s' : Scheduler} {id : ThreadId}
    (h : s.beginJoin id = .ok s') : s' = s.setJoining id := by
  unfold beginJoin at h
  split at h
  · contradiction
  · split at h
    · contradiction
    · split at h
      · contradiction
      · exact (Except.ok.inj h).symm

/-- A wait is accepted only for another thread there is. -/
theorem exists_of_beginJoin {s s' : Scheduler} {id : ThreadId} (h : s.beginJoin id = .ok s') :
    id ≠ s.currentId ∧ ∃ t ∈ s.ready ++ s.zombies, t.id = id := by
  unfold beginJoin at h
  split at h
  · contradiction
  · next hne =>
      split at h
      · contradiction
      · next t ht => exact ⟨hne, t, List.mem_of_find?_eq_some ht, by simpa using List.find?_some ht⟩

theorem endJoin_snd (s : Scheduler) (id : ThreadId) : (s.endJoin id).2 = s.setJoining .nobody := by
  simp only [endJoin]
  split <;> rfl

theorem setJoining_eq {s : Scheduler} (hc : s.current = some c) (target : ThreadId) :
    s.setJoining target = { s with current := some { c with joining := target } } := by
  rw [setJoining, hc]
  rfl

/-! ## looking threads up -/

/-- Every identity belongs to the current thread, to one that is ready, or to a
zombie. -/
theorem mem_ids_iff {s : Scheduler} {id : ThreadId} (hc : s.current = some c) :
    id ∈ s.ids ↔ id = c.id ∨ ∃ t ∈ s.ready ++ s.zombies, t.id = id := by
  rw [ids, threads, hc, List.append_assoc]
  simp [eq_comm, or_and_right, exists_or]

namespace Placed

/-- A thread that is not current is found by its identity. -/
theorem find?_eq {s : Scheduler} (h : s.Placed) (ht : t ∈ s.ready ++ s.zombies) :
    s.find? t.id = some t := by
  obtain ⟨front, back, heq⟩ := List.append_of_mem ht
  have hnd := h.nodup
  rw [ids, threads, List.append_assoc, heq, List.map_append, List.map_append] at hnd
  have hfront : ∀ a ∈ front, a.id ≠ t.id := by
    intro a ha
    have hparts := (List.nodup_append.mp hnd).2.1
    exact (List.nodup_append.mp hparts).2.2 a.id (List.mem_map_of_mem ha) t.id (by simp)
  rw [find?, heq, List.find?_append, List.find?_eq_none.mpr (by simpa using hfront)]
  simp

/-- A thread that is ready has not ended. -/
theorem isRunning_of_ready {s : Scheduler} (h : s.Placed) (ht : t ∈ s.ready) :
    s.isRunning t.id = true := by
  have hstate := (Thread.isRunnable_iff.mp (h.ready ht)).1
  rw [isRunning, h.find?_eq (List.mem_append_left _ ht)]
  simp [hstate]

/-- A zombie has ended. -/
theorem isRunning_of_zombie {s : Scheduler} (h : s.Placed) (hc : s.current = some c)
    (ht : t ∈ s.zombies) : s.isRunning t.id = false := by
  have hmem : t ∈ s.ready ++ s.zombies := List.mem_append_right _ ht
  have hne : c.id ≠ t.id := (h.ne_current hc hmem).symm
  have hstate : t.state ≠ .running := by
    cases (h.ended t ht).state with
    | inl hdone => simp [hdone]
    | inr hcancelled => simp [hcancelled]
  rw [isRunning, h.find?_eq hmem, currentId, hc]
  simp [hne, hstate]

end Placed

/-! ## how threads have ended -/

/-- How the threads have ended that have, the earliest first. -/
def ended (s : Scheduler) : List (ThreadId × ExitStatus) :=
  s.zombies.filterMap fun t => t.exitStatus.map fun status => (t.id, status)

theorem mem_ended_iff {s : Scheduler} {id : ThreadId} :
    (id, status) ∈ s.ended ↔ ∃ t ∈ s.zombies, t.id = id ∧ t.exitStatus = some status := by
  simp only [ended, List.mem_filterMap, Option.map_eq_some_iff, Prod.mk.injEq]
  constructor
  · rintro ⟨t, ht, status', hstatus, rfl, rfl⟩
    exact ⟨t, ht, rfl, hstatus⟩
  · rintro ⟨t, ht, rfl, hstatus⟩
    exact ⟨t, ht, status, hstatus, rfl, rfl⟩

/-- One more thread has ended. -/
theorem ended_append {s s' : Scheduler} (h : s'.zombies = s.zombies ++ [t])
    (hstatus : t.exitStatus = some status) : s'.ended = s.ended ++ [(t.id, status)] := by
  rw [ended, h, List.filterMap_append]
  simp [ended, hstatus]

/-- Every zombie has ended, and in one way. -/
theorem Placed.map_fst_ended {s : Scheduler} (h : s.Placed) :
    s.ended.map Prod.fst = s.zombies.map Thread.id := by
  have hended := h.ended
  rw [Scheduler.ended]
  generalize s.zombies = zombies at hended ⊢
  induction zombies with
  | nil => rfl
  | cons t zombies ih =>
      obtain ⟨status, hstatus⟩ := (hended t (by simp)).exists_exitStatus
      have hrest := ih fun a ha => hended a (List.mem_cons_of_mem t ha)
      simp [hstatus, hrest]

theorem Placed.nodup_ended {s : Scheduler} (h : s.Placed) : (s.ended.map Prod.fst).Nodup := by
  have hnd := h.nodup
  rw [ids, threads_eq, List.map_append] at hnd
  rw [h.map_fst_ended]
  exact (List.nodup_append.mp hnd).2.1

/-! ## no operation loses or duplicates a thread -/

theorem ids_setCurrent {s : Scheduler} (hc : s.current = some c) (hid : t.id = c.id) :
    { s with current := some t }.ids = s.ids := by
  simp [ids, threads, hc, hid]

theorem ids_setJoining (s : Scheduler) (target : ThreadId) : (s.setJoining target).ids = s.ids := by
  simp only [ids, threads, setJoining]
  cases s.current <;> rfl

theorem ids_start (s : Scheduler) (t : Thread) (size : Nat) : (s.start t size).2.ids = [t.id] := by
  simp [ids, threads, start]

/-- A thread that is added is one thread more. -/
theorem ids_add (s : Scheduler) (t : Thread) : (s.add t).ids.Perm (s.ids ++ [t.id]) := by
  simp only [ids, threads, add, List.map_append, List.map_cons, List.map_nil, List.append_assoc]
  apply List.Perm.append_left
  apply List.Perm.append_left
  exact List.perm_append_comm

theorem ids_rotate {s : Scheduler} (h : s.Placed) : s.rotate.2.ids.Perm s.ids := by
  cases hc : s.current with
  | none => rw [rotate_of_none hc]
  | some c =>
      cases hr : s.ready with
      | nil => rw [rotate_nil hr]
      | cons n rest =>
          rw [rotate_cons h hc hr]
          simp only [ids, threads, hc, hr]
          apply List.Perm.map
          apply List.Perm.append_right
          rw [Option.toList_some, List.singleton_append, ← List.cons_append]
          exact List.perm_append_singleton c (n :: rest)

theorem ids_retire {s : Scheduler} (h : s.Placed) (v : Word) : (s.retire v).2.ids.Perm s.ids := by
  cases hc : s.current with
  | none => rw [retire_of_none hc]
  | some c =>
      cases hr : s.ready with
      | nil => rw [retire_nil hr]
      | cons n rest =>
          rw [retire_cons h hc hr]
          simp only [ids, threads, hc, hr, Option.toList_some, List.cons_append, List.map_cons,
            List.map_append, List.map_nil, Thread.id_finish]
          rw [← List.append_assoc, ← List.cons_append]
          exact List.perm_append_singleton c.id _

theorem ids_cancel {s s' : Scheduler} {id : ThreadId} (h : s.Placed)
    (hs : s.cancel id = .ok (freed, s')) : s'.ids.Perm s.ids := by
  obtain ⟨front, t, back, hr, rfl, -, rfl⟩ := exists_of_cancel h hs
  simp only [ids, threads, hr, List.map_append, List.map_cons, List.map_nil,
    Thread.id_cancel, List.append_assoc]
  apply List.Perm.append_left
  apply List.Perm.append_left
  rw [← List.append_assoc, List.cons_append]
  exact List.perm_append_singleton t.id _

/-! ## every operation keeps the places -/

namespace Placed

/-- Changing the descriptor of the current thread does not move it. -/
theorem setCurrent {s : Scheduler} (h : s.Placed) (hc : s.current = some c) (hid : t.id = c.id)
    (ht : t.isRunnable) : { s with current := some t }.Placed := by
  apply h.of_perm (.of_eq (ids_setCurrent hc hid)) rfl
  · intro a ha
    cases List.mem_cons.mp ha with
    | inl heq => rw [heq]; exact ht
    | inr hmem => exact h.ready hmem
  · exact h.ended

theorem setJoining {s : Scheduler} (h : s.Placed) (target : ThreadId) :
    (s.setJoining target).Placed := by
  apply h.of_perm (.of_eq (ids_setJoining s target)) rfl
  · intro a ha
    cases List.mem_append.mp ha with
    | inl hcur =>
        obtain ⟨c, hc, rfl⟩ : ∃ c, s.current = some c ∧ { c with joining := target } = a := by
          simpa [Scheduler.setJoining] using hcur
        simpa [Thread.isRunnable] using h.current hc
    | inr hready => exact h.ready hready
  · exact h.ended

theorem reap {s : Scheduler} (h : s.Placed) : s.reap.2.Placed :=
  h.of_perm (.refl _) rfl h.living h.ended

theorem allocateId {s : Scheduler} (h : s.Placed) : s.allocateId.2.Placed where
  nodup := h.nodup
  bounds id hid := ⟨(h.bounds id hid).1, Nat.lt_succ_of_lt (h.bounds id hid).2⟩
  nextId_pos := Nat.le_succ_of_le h.nextId_pos
  living := h.living
  ended := h.ended

/-- The identity to be given out next belongs to no thread yet. -/
theorem nextId_notMem {s : Scheduler} (h : s.Placed) : s.nextId ∉ s.ids :=
  fun hmem => Nat.lt_irrefl _ (h.bounds _ hmem).2

/-- The identity just given out is in bounds. -/
theorem nextId_bounds {s : Scheduler} (h : s.Placed) :
    1 ≤ s.nextId.val ∧ s.nextId.val < s.allocateId.2.nextId.val :=
  ⟨h.nextId_pos, Nat.lt_succ_self _⟩

theorem start {s : Scheduler} (h : s.Placed) (size : Nat) :
    (s.allocateId.2.start (Thread.hosted s.nextId) size).2.Placed where
  nodup := by simp [ids_start]
  bounds id hid := by
    rw [ids_start, List.mem_singleton] at hid
    rw [hid]
    exact h.nextId_bounds
  nextId_pos := h.allocateId.nextId_pos
  living := by simp [Scheduler.start, Scheduler.living, Thread.isRunnable_hosted]
  ended := by simp [Scheduler.start]

/-- A thread with an identity of its own goes to the back of the queue. -/
theorem add {s : Scheduler} (h : s.Placed) (hid : t.id = s.nextId) (ht : t.isRunnable) :
    (s.allocateId.2.add t).Placed := by
  have hperm : (s.allocateId.2.add t).ids.Perm (s.nextId :: s.ids) :=
    (hid ▸ ids_add s.allocateId.2 t).trans (List.perm_append_singleton _ _)
  constructor
  · exact hperm.nodup_iff.mpr (List.nodup_cons.mpr ⟨h.nextId_notMem, h.nodup⟩)
  · intro id hmem
    cases List.mem_cons.mp (hperm.mem_iff.mp hmem) with
    | inl heq => rw [heq]; exact h.nextId_bounds
    | inr hold => exact h.allocateId.bounds id hold
  · exact h.allocateId.nextId_pos
  · intro a ha
    have ha' : a ∈ s.living ∨ a = t := by
      simpa [Scheduler.living, Scheduler.add, Scheduler.allocateId, or_assoc] using ha
    cases ha' with
    | inl hold => exact h.living a hold
    | inr heq => rw [heq]; exact ht
  · exact h.ended

theorem rotate {s : Scheduler} (h : s.Placed) : s.rotate.2.Placed := by
  cases hc : s.current with
  | none => rw [rotate_of_none hc]; exact h
  | some c =>
      cases hr : s.ready with
      | nil => rw [rotate_nil hr]; exact h
      | cons n rest =>
          have hperm := ids_rotate h
          rw [rotate_cons h hc hr] at hperm ⊢
          apply h.of_perm hperm rfl
          · intro a ha
            apply h.living
            simp only [Scheduler.living, hc, hr, Option.toList_some, List.singleton_append,
              List.mem_cons, List.mem_append, List.not_mem_nil, or_false] at ha ⊢
            exact or_left_comm.mp (ha.imp_right Or.symm)
          · exact h.ended

theorem retire {s : Scheduler} (h : s.Placed) (v : Word) : (s.retire v).2.Placed := by
  cases hc : s.current with
  | none => rw [retire_of_none hc]; exact h
  | some c =>
      cases hr : s.ready with
      | nil => rw [retire_nil hr]; exact h
      | cons n rest =>
          have hperm := ids_retire h v
          rw [retire_cons h hc hr] at hperm ⊢
          apply h.of_perm hperm rfl
          · intro a ha
            apply h.ready
            rw [hr]
            exact ha
          · intro a ha
            cases List.mem_append.mp ha with
            | inl hold => exact h.ended a hold
            | inr hnew => rw [List.mem_singleton.mp hnew]; exact c.hasEnded_finish v

theorem cancel {s s' : Scheduler} {id : ThreadId} (h : s.Placed)
    (hs : s.cancel id = .ok (freed, s')) : s'.Placed := by
  have hperm := ids_cancel h hs
  obtain ⟨front, t, back, hr, rfl, -, rfl⟩ := exists_of_cancel h hs
  apply h.of_perm hperm rfl
  · intro a ha
    apply h.living
    have hsub : (front ++ back).Sublist s.ready := by simp [hr]
    exact (hsub.append_left s.current.toList).subset ha
  · intro a ha
    cases List.mem_append.mp ha with
    | inl hold => exact h.ended a hold
    | inr hnew => rw [List.mem_singleton.mp hnew]; exact t.hasEnded_cancel

end Placed

/-! ## histories -/

/-- The scheduler after an operation that may be refused. -/
theorem scheduler_act_cancel (s : Scheduler) (id : ThreadId) :
    (s.act (.cancel id)).scheduler = s ∨
      ∃ freed, s.cancel id = .ok (freed, (s.act (.cancel id)).scheduler) := by
  simp only [act]
  split
  · exact .inl rfl
  · next freed s' hs => exact .inr ⟨freed, hs⟩

theorem scheduler_act_beginJoin (s : Scheduler) (id : ThreadId) :
    (s.act (.beginJoin id)).scheduler = s ∨
      (s.act (.beginJoin id)).scheduler = s.setJoining id := by
  simp only [act]
  split
  · exact .inl rfl
  · next hs => exact .inr (eq_setJoining_of_beginJoin hs)

theorem scheduler_act_endJoin (s : Scheduler) (id : ThreadId) :
    (s.act (.endJoin id)).scheduler = s.setJoining .nobody := by
  have hend := endJoin_snd s id
  simp only [act]
  split
  · next hs => rw [hs] at hend; exact hend
  · next hs => rw [hs] at hend; exact hend

/-- **Every operation keeps every thread in its place**, whatever it is given
and whatever it answers. -/
theorem Placed.act {s : Scheduler} (h : s.Placed) (o : Operation) :
    (s.act o).scheduler.Placed := by
  cases o with
  | allocateId => exact h.allocateId
  | start size => exact h.start size
  | spawn routine arg stack => exact h.add rfl (Thread.isRunnable_create ..)
  | spawnHosted => exact h.add rfl (Thread.isRunnable_hosted _)
  | rotate => exact h.rotate
  | retire v => exact h.retire v
  | reap => exact h.reap
  | cancel id =>
      cases scheduler_act_cancel s id with
      | inl heq => rw [heq]; exact h
      | inr hok => exact h.cancel hok.choose_spec
  | beginJoin id =>
      cases scheduler_act_beginJoin s id with
      | inl heq => rw [heq]; exact h
      | inr heq => rw [heq]; exact h.setJoining id
  | endJoin id => rw [scheduler_act_endJoin]; exact h.setJoining .nobody

theorem Placed.after {s : Scheduler} (h : s.Placed) (history : List Operation) :
    (s.after history).Placed := by
  induction history generalizing s with
  | nil => exact h
  | cons o history ih => exact ih (h.act o)

/-- The identities of the threads in a scheduler after an operation, from
those before.  A start leaves the thread that it makes, and a thread that is
made later is added. -/
def enter (s : Scheduler) (ids : List ThreadId) : Operation → List ThreadId
  | .start _ => [s.nextId]
  | .spawn .. | .spawnHosted => ids ++ [s.nextId]
  | _ => ids

/-- The identities of the threads that a history has made since it last
started over, those of `ids` included if it never did. -/
def entered (s : Scheduler) (ids : List ThreadId) : List Operation → List ThreadId
  | [] => ids
  | o :: history => (s.act o).scheduler.entered (s.enter ids o) history

/-- No operation loses or duplicates a thread. -/
theorem ids_act {s : Scheduler} (h : s.Placed) (o : Operation) :
    (s.act o).scheduler.ids.Perm (s.enter s.ids o) := by
  cases o with
  | allocateId => exact .refl _
  | start size => exact .of_eq (ids_start ..)
  | spawn routine arg stack => exact ids_add s.allocateId.2 _
  | spawnHosted => exact ids_add s.allocateId.2 _
  | rotate => exact ids_rotate h
  | retire v => exact ids_retire h v
  | reap => exact .refl _
  | cancel id =>
      cases scheduler_act_cancel s id with
      | inl heq => rw [heq]; exact .refl _
      | inr hok => exact ids_cancel h hok.choose_spec
  | beginJoin id =>
      cases scheduler_act_beginJoin s id with
      | inl heq => rw [heq]; exact .refl _
      | inr heq => exact .of_eq (heq ▸ ids_setJoining s id)
  | endJoin id => exact .of_eq (scheduler_act_endJoin s id ▸ ids_setJoining s .nobody)

theorem enter_perm {ids ids' : List ThreadId} (h : ids.Perm ids') (s : Scheduler) (o : Operation) :
    (s.enter ids o).Perm (s.enter ids' o) := by
  cases o with
  | start => exact .refl _
  | spawn | spawnHosted => exact h.append_right _
  | allocateId | rotate | retire | reap | cancel | beginJoin | endJoin => exact h

theorem ids_after {s : Scheduler} {ids : List ThreadId} (h : s.Placed) (hids : s.ids.Perm ids)
    (history : List Operation) : (s.after history).ids.Perm (s.entered ids history) := by
  induction history generalizing s ids with
  | nil => exact hids
  | cons o history ih => exact ih (h.act o) ((ids_act h o).trans (enter_perm hids s o))

/-- **Every thread is in exactly one place**, after any history of a
scheduler: the identities of the current thread, of those that are ready and
of the zombies are distinct, in bounds, and those of the threads made since
the last start; the current thread and those that are ready can be switched
to, and of a zombie nothing is left but how it ended. -/
theorem one_place_after (history : List Operation) :
    let s := ({} : Scheduler).after history
    s.ids.Nodup ∧ (∀ id ∈ s.ids, 1 ≤ id.val ∧ id.val < s.nextId.val) ∧
      s.ids.Perm (({} : Scheduler).entered [] history) ∧
      (∀ t ∈ s.living, t.state = .running ∧ t.context.isSome) ∧
      ∀ t ∈ s.zombies, (t.state = .done ∨ t.state = .cancelled) ∧ t.context = none ∧
        t.routine = none ∧ t.joining = .nobody := by
  intro s
  have h : s.Placed := placed_empty.after history
  refine ⟨h.nodup, h.bounds, ids_after placed_empty .nil history, ?_, ?_⟩
  · intro t ht
    exact Thread.isRunnable_iff.mp (h.living t ht)
  · intro t ht
    have hended := h.ended t ht
    exact ⟨hended.state, hended.context, hended.routine, hended.joining⟩

end Scheduler

end GreenThreads
